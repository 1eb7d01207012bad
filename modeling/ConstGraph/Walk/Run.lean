import ConstGraph.Record
import ConstGraph.Walk.Context

/-!
# The walk of a syntax tree

The walk visits the nodes of a tree in pre-order, each in its context. A
visit finds at most one record and says which children come next, with
their contexts (`Walker.visit`). `Walker.run` keeps the nodes still to be
visited on a stack, so the depth of a tree costs no recursion; it ends
because a visit replaces a node by some of its own children.
-/

namespace ConstGraph

/-- What a walk needs to know: the file its records name, and the
inference for local assignments. -/
structure Walker where
  /-- The file every record names. -/
  file : String
  /-- The inference for local assignments. -/
  infer : Inference := .none

/-- The outcome of visiting one node. -/
structure Visit where
  /-- What the node itself is a record of. -/
  record : Option Record
  /-- The children to walk next, each in its context. -/
  next : List (SyntaxTree × WalkContext)

namespace Walker

/-- Calls without receiver that mark their arguments instead of being
relations themselves. -/
def markers : List String := ["const", "raise"]

/-- The nodes among siblings, each paired with the context left by the
siblings before it. -/
def siblings (w : Walker) : List SyntaxTree → WalkContext → List (SyntaxTree × WalkContext)
  | [], _ => []
  | t :: rest, ctx =>
    if t.isNode then (t, ctx) :: w.siblings rest (ctx.after w.infer t) else w.siblings rest ctx

/-- A relation to `path` at the lines of a node, in a context. -/
def relation (w : Walker) (path : ConstPath) (span : LineSpan) (ctx : WalkContext) : Relation :=
  ⟨path, ctx.path, ctx.inMethod, ctx.callee, w.file, span.first⟩

/-- Only the children matter. -/
def pass (w : Walker) (children : List SyntaxTree) (ctx : WalkContext) : Visit :=
  ⟨none, w.siblings children ctx⟩

/-- A class or module: its body is walked inside it, with no locals. The
method around it stays in force. -/
def visitDefinition (w : Walker) (kind : DefinitionKind) (children : List SyntaxTree)
    (span : LineSpan) (ctx : WalkContext) : Visit :=
  let path := ((children.headD .absent).constPath ctx.path).unroot
  ⟨some (.definition ⟨path, kind, w.file, span.first, span.count⟩),
    w.siblings children.tail { ctx with path, types := .empty }⟩

/-- A method: its children are walked inside it, with no locals and no
call around them. -/
def visitMethod (w : Walker) (name : SyntaxTree) (children : List SyntaxTree)
    (ctx : WalkContext) : Visit :=
  w.pass children { ctx with inMethod := name.name?.getD "", callee := "", types := .empty }

/-- A call that is a relation to `path`: its operands are walked as
operands of the call. -/
def visitRelation (w : Walker) (path : ConstPath) (callee : String) (operands : List SyntaxTree)
    (span : LineSpan) (ctx : WalkContext) : Visit :=
  let inner := { ctx with callee }
  ⟨some (.relation (w.relation path span inner)), w.siblings operands inner⟩

/-- A call. Without receiver it is a relation to the scope itself, unless
it is a marker; on a local or on another call it is a relation to the
receiver's type; on anything else the receiver reports itself.

A local read with a node where its name should be has the unknown type. Such
a tree is never built from a source; the room on a stack that looking up a
very deep node would take is left out. -/
def visitCall (w : Walker) (children : List SyntaxTree) (span : LineSpan)
    (ctx : WalkContext) : Visit :=
  match children with
  | receiver :: .name callee :: operands =>
    if callee = "" then w.pass children ctx
    else
      match receiver with
      | .absent =>
        if callee ∈ markers then w.pass operands { ctx with inMethod := callee, callee := "" }
        else w.visitRelation ctx.path callee operands span ctx
      | .node .localRead names _ _ =>
        let type := ((names.headD .absent).name?.map ctx.types.lookup).getD .unknown
        w.visitRelation type.path callee (receiver :: operands) span ctx
      | .node .call _ _ _ =>
        w.visitRelation InferredType.unknown.path callee (receiver :: operands) span ctx
      | _ => w.pass children { ctx with callee }
  | _ => w.pass children ctx

/-- Visit one node in its context. -/
def visit (w : Walker) (kind : NodeKind) (children : List SyntaxTree) (span : LineSpan)
    (ctx : WalkContext) : Visit :=
  match kind with
  | .moduleDef => w.visitDefinition .ofModule children span ctx
  | .classDef => w.visitDefinition .ofClass children span ctx
  | .methodDef => w.visitMethod (children.headD .absent) children ctx
  | .singletonDef => w.visitMethod (children.tail.headD .absent) children ctx
  | .constant =>
    ⟨some (.relation (w.relation ((SyntaxTree.node .constant children span "").constPath [])
      span ctx)), []⟩
  | .call => w.visitCall children span ctx
  | .root | .localRead | .localAssign | .other => w.pass children ctx

/-! ## A visit moves down the tree -/

/-- What is walked next among siblings is some of the siblings, in order. -/
theorem siblings_sublist (w : Walker) (ts : List SyntaxTree) (ctx : WalkContext) :
    ((w.siblings ts ctx).map Prod.fst).Sublist ts := by
  induction ts generalizing ctx with
  | nil => exact .slnil
  | cons t ts ih =>
    rw [siblings]
    split
    · exact (ih _).cons_cons t
    · exact (ih _).cons t

theorem visitCall_next_sublist (w : Walker) (children : List SyntaxTree) (span : LineSpan)
    (ctx : WalkContext) :
    ((w.visitCall children span ctx).next.map Prod.fst).Sublist children := by
  have own := fun c => w.siblings_sublist children c
  unfold visitCall
  split
  · next receiver callee operands =>
    have skip : operands.Sublist (receiver :: .name callee :: operands) :=
      .cons _ (.cons _ (List.Sublist.refl _))
    have keep : (receiver :: operands).Sublist (receiver :: .name callee :: operands) :=
      .cons_cons _ (.cons _ (List.Sublist.refl _))
    split
    · exact own _
    · split
      · split
        · exact (w.siblings_sublist _ _).trans skip
        · exact (w.siblings_sublist _ _).trans skip
      · exact (w.siblings_sublist _ _).trans keep
      · exact (w.siblings_sublist _ _).trans keep
      · exact own _
  · exact own _

/-- **A visit continues with some of the node's own children**, in order. -/
theorem visit_next_sublist (w : Walker) (kind : NodeKind) (children : List SyntaxTree)
    (span : LineSpan) (ctx : WalkContext) :
    ((w.visit kind children span ctx).next.map Prod.fst).Sublist children := by
  cases kind with
  | moduleDef => exact (w.siblings_sublist _ _).trans (List.tail_sublist _)
  | classDef => exact (w.siblings_sublist _ _).trans (List.tail_sublist _)
  | constant => exact List.nil_sublist _
  | call => exact w.visitCall_next_sublist children span ctx
  | _ => exact w.siblings_sublist children _

/-! ## The walk -/

/-- The trees of a stack of nodes still to be walked. -/
def pendingSize (stack : List (SyntaxTree × WalkContext)) : Nat :=
  SyntaxTree.sizes (stack.map Prod.fst)

theorem pendingSize_next_lt (w : Walker) (kind : NodeKind) (children : List SyntaxTree)
    (span : LineSpan) (tag : String) (ctx : WalkContext)
    (rest : List (SyntaxTree × WalkContext)) :
    pendingSize ((w.visit kind children span ctx).next ++ rest)
      < pendingSize ((.node kind children span tag, ctx) :: rest) := by
  have h := SyntaxTree.sizes_le_of_sublist (w.visit_next_sublist kind children span ctx)
  simp only [pendingSize, List.map_append, SyntaxTree.sizes_append, List.map_cons,
    SyntaxTree.sizes, SyntaxTree.size]
  omega

theorem pendingSize_pop_lt (t : SyntaxTree) (ctx : WalkContext)
    (rest : List (SyntaxTree × WalkContext)) :
    pendingSize rest < pendingSize ((t, ctx) :: rest) := by
  have := t.size_pos
  simp only [pendingSize, List.map_cons, SyntaxTree.sizes]
  omega

/-- Walk a stack of nodes, the records found so far in reverse. -/
def run (w : Walker) (stack : List (SyntaxTree × WalkContext)) (found : List Record) :
    List Record :=
  match stack with
  | [] => found.reverse
  | (.node kind children span tag, ctx) :: rest =>
    let v := w.visit kind children span ctx
    have := w.pendingSize_next_lt kind children span tag ctx rest
    w.run (v.next ++ rest) (v.record.toList ++ found)
  | (t@(.absent), ctx) :: rest =>
    have := pendingSize_pop_lt t ctx rest
    w.run rest found
  | (t@(.name _), ctx) :: rest =>
    have := pendingSize_pop_lt t ctx rest
    w.run rest found
termination_by pendingSize stack

/-- The records of a tree walked in a context, in pre-order. -/
def records (w : Walker) (t : SyntaxTree) (ctx : WalkContext) : List Record :=
  w.run [(t, ctx)] []

/-- The definitions and relations of a tree walked in a context. -/
def walk (w : Walker) (t : SyntaxTree) (ctx : WalkContext) : WalkResult :=
  .ofRecords (w.records t ctx)

end Walker

end ConstGraph
