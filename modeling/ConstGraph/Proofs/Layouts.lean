import ConstGraph.Proofs.ConstantsAndCalls

/-!
# The layout of nodes

Every kind of node has its layout: which children it has, and which of them
are names. A tree is well formed if all its nodes are laid out by their kind
and none stands before line 1.

A walk makes something of any tree, however it is laid out. `regularVisit?`
is a visit that knows well-formed nodes only and has no answer for others;
on the sites of a well-formed tree it is the visit (`regularVisit?_eq`), so
what a walk does for other layouts plays no part there. A method may have
the empty name.
-/

namespace ConstGraph

/-! ## Well-formed trees -/

/-- The children are laid out as the kind asks for. Where a node may be
missing, its place holds no name. -/
def NodeKind.LaysOut (children : List SyntaxTree) : NodeKind → Prop
  | .moduleDef => ∃ name body, children = name :: body ∧ name.name? = none
  | .classDef => ∃ name superclass body, children = name :: superclass :: body ∧
      name.name? = none ∧ superclass.name? = none
  | .methodDef => ∃ x rest, children = .name x :: rest
  | .singletonDef => ∃ receiver x rest, children = receiver :: .name x :: rest
  | .constant => ∃ qualifier x, children = [qualifier, .name x] ∧ qualifier.name? = none
  | .root => children = []
  | .call => ∃ receiver x arguments, children = receiver :: .name x :: arguments ∧
      receiver.name? = none ∧ ∀ a ∈ arguments, a.isNode
  | .localRead => ∃ x, children = [.name x]
  | .localAssign => ∃ x value, children = [.name x, value] ∧ value.name? = none
  | .other => True

namespace SyntaxTree

/-- Every node of the tree is laid out by its kind, and its lines are
counted from 1. -/
inductive WellFormed : SyntaxTree → Prop where
  | absent : WellFormed absent
  | name (text : String) : WellFormed (name text)
  | node {kind : NodeKind} {children : List SyntaxTree} {span : LineSpan} {tag : String} :
      kind.LaysOut children → 1 ≤ span.first ∧ span.first ≤ span.last →
      (∀ c ∈ children, WellFormed c) → WellFormed (node kind children span tag)

theorem WellFormed.children {t : SyntaxTree} (h : t.WellFormed) : ∀ c ∈ t.children, c.WellFormed := by
  cases h with
  | absent => exact fun c hc => absurd hc List.not_mem_nil
  | name => exact fun c hc => absurd hc List.not_mem_nil
  | node _ _ hchildren => exact hchildren

/-- **What a walk comes to in a well-formed tree is well formed.** -/
theorem WellFormed.site {t : SyntaxTree} (h : t.WellFormed) {above : List Step}
    {elders : List SyntaxTree} {p : Site} (hp : p ∈ t.sitesFrom above elders) :
    p.here.tree.WellFormed := by
  induction h generalizing above elders with
  | absent => simp at hp
  | name text => simp at hp
  | @node kind children span tag hlayout hlines hchildren ih =>
    obtain rfl | ⟨front, c, back, hc, hp⟩ := mem_sitesFrom_node.1 hp
    · exact .node hlayout hlines hchildren
    · have hmem : c ∈ children := (kind.entered_sublist children).subset (by simp [hc])
      exact ih c hmem hp

/-- The path of a chain of constants, each with a qualifier and a name. -/
def regularPath? (base : ConstPath) : SyntaxTree → Option ConstPath
  | absent => some base
  | name _ => none
  | node .constant [qualifier, name x] _ _ => (qualifier.regularPath? base).map (· ++ [x])
  | node .constant _ _ _ => none
  | node .root [] _ _ => some [Segment.rootMarker]
  | node .root _ _ _ => none
  | node _ _ _ _ => some base

theorem regularPath?_eq {t : SyntaxTree} (h : t.WellFormed) (hname : t.name? = none)
    (base : ConstPath) : t.regularPath? base = some (t.constPath base) := by
  induction h with
  | absent => simp [regularPath?, constPath, constChain, isRoot, kind?]
  | name text => cases hname
  | @node kind children span tag hlayout hlines hchildren ih =>
    cases kind with
    | constant =>
      obtain ⟨qualifier, x, rfl, hqualifier⟩ := hlayout
      rw [regularPath?, ih qualifier List.mem_cons_self hqualifier, constPath_constant]
      rfl
    | root =>
      obtain rfl : children = [] := hlayout
      rfl
    | _ => simp [regularPath?, constPath, constChain, isRoot, kind?]

end SyntaxTree

/-! ## Visits of well-formed nodes -/

namespace Walker

variable (w : Walker)

/-- The context after a sibling, if it is no assignment or one of a value
to a name. -/
def regularAfter? (t : SyntaxTree) (ctx : WalkContext) : Option WalkContext :=
  match t with
  | .node .localAssign [.name _, _] _ _ => some (ctx.after w.infer t)
  | .node .localAssign _ _ _ => none
  | _ => some ctx

/-- The nodes among siblings with their contexts. -/
def regularSiblings? : List SyntaxTree → WalkContext → Option (List (SyntaxTree × WalkContext))
  | [], _ => some []
  | t :: rest, ctx => do
    let next ← regularSiblings? rest (← w.regularAfter? t ctx)
    return if t.isNode then (t, ctx) :: next else next

/-- A record, and siblings to go on with. -/
def regularPass? (record : Option Record) (ts : List SyntaxTree) (ctx : WalkContext) :
    Option Visit :=
  (w.regularSiblings? ts ctx).map fun next => ⟨record, next⟩

/-- A class or module with a name. -/
def regularDefinition? (kind : DefinitionKind) (name : SyntaxTree) (rest : List SyntaxTree)
    (span : LineSpan) (ctx : WalkContext) : Option Visit := do
  let path := (← name.regularPath? ctx.path).unroot
  w.regularPass? (some (.definition ⟨path, kind, w.file, span.first, span.count⟩)) rest
    { ctx with path, types := .empty }

/-- A method of a name. -/
def regularMethod? (x : String) (children : List SyntaxTree) (ctx : WalkContext) : Option Visit :=
  w.regularPass? none children { ctx with inMethod := x, callee := "", types := .empty }

/-- A call that is a relation to `path`. -/
def regularRelation? (path : ConstPath) (callee : String) (operands : List SyntaxTree)
    (span : LineSpan) (ctx : WalkContext) : Option Visit :=
  w.regularPass? (some (.relation (w.relation path span { ctx with callee }))) operands
    { ctx with callee }

/-- A call with a receiver or none, and with a method, which may have the
empty name. -/
def regularCall? (receiver : SyntaxTree) (callee : String) (arguments : List SyntaxTree)
    (span : LineSpan) (ctx : WalkContext) : Option Visit :=
  if callee = "" then w.regularPass? none (receiver :: arguments) ctx
  else
    match receiver with
    | .absent =>
      if callee ∈ markers then
        w.regularPass? none arguments { ctx with inMethod := callee, callee := "" }
      else w.regularRelation? ctx.path callee arguments span ctx
    | .name _ => none
    | .node .localRead [.name x] _ _ =>
      w.regularRelation? (ctx.types.lookup x).path callee (receiver :: arguments) span ctx
    | .node .localRead _ _ _ => none
    | .node .call _ _ _ =>
      w.regularRelation? InferredType.unknown.path callee (receiver :: arguments) span ctx
    | .node _ _ _ _ => w.regularPass? none (receiver :: arguments) { ctx with callee }

/-- A visit of a node that is laid out by its kind. -/
def regularVisit? (kind : NodeKind) (children : List SyntaxTree) (span : LineSpan)
    (ctx : WalkContext) : Option Visit :=
  match kind, children with
  | .moduleDef, name :: body => w.regularDefinition? .ofModule name body span ctx
  | .classDef, name :: superclass :: body =>
    w.regularDefinition? .ofClass name (superclass :: body) span ctx
  | .methodDef, .name x :: rest => w.regularMethod? x rest ctx
  | .singletonDef, receiver :: .name x :: rest => w.regularMethod? x (receiver :: rest) ctx
  | .constant, [qualifier, .name x] =>
    (qualifier.regularPath? []).map fun path =>
      ⟨some (.relation (w.relation (path ++ [x]) span ctx)), []⟩
  | .call, receiver :: .name callee :: arguments =>
    w.regularCall? receiver callee arguments span ctx
  | .root, [] => some ⟨none, []⟩
  | .localRead, [.name _] => some ⟨none, []⟩
  | .localAssign, [.name _, value] => w.regularPass? none [value] ctx
  | .other, children => w.regularPass? none children ctx
  | _, _ => none

/-! ## The visit of a well-formed node is regular -/

section

variable {t : SyntaxTree} {ts : List SyntaxTree} (ctx : WalkContext)

theorem regularAfter?_eq (h : t.WellFormed) :
    w.regularAfter? t ctx = some (ctx.after w.infer t) := by
  cases h with
  | absent => rfl
  | name text => rfl
  | @node kind children span tag hlayout _ _ =>
    cases kind with
    | localAssign =>
      obtain ⟨x, value, rfl, -⟩ := hlayout
      rfl
    | _ => rfl

theorem regularSiblings?_eq (h : ∀ t ∈ ts, t.WellFormed) :
    w.regularSiblings? ts ctx = some (w.siblings ts ctx) := by
  induction ts generalizing ctx with
  | nil => rfl
  | cons t ts ih =>
    obtain ⟨ht, hts⟩ := List.forall_mem_cons.1 h
    rw [regularSiblings?, w.regularAfter?_eq ctx ht]
    simp only [Option.bind_eq_bind, Option.bind_some, ih _ hts, siblings]
    cases hnode : t.isNode with
    | true => rfl
    | false =>
      rw [after_of_not_isNode hnode]
      rfl

theorem regularPass?_eq (record : Option Record) (h : ∀ t ∈ ts, t.WellFormed) :
    w.regularPass? record ts ctx = some ⟨record, w.siblings ts ctx⟩ := by
  rw [regularPass?, w.regularSiblings?_eq ctx h]
  rfl

/-- A name among siblings is passed over. -/
theorem siblings_cons_name (t : SyntaxTree) (x : String) (ts : List SyntaxTree) :
    w.siblings (t :: .name x :: ts) ctx = w.siblings (t :: ts) ctx := rfl

theorem regularDefinition?_eq {name : SyntaxTree} (kind : DefinitionKind) (span : LineSpan)
    (hname : name.name? = none) (h : ∀ t ∈ name :: ts, t.WellFormed) :
    w.regularDefinition? kind name ts span ctx =
      some (w.visitDefinition kind (name :: ts) span ctx) := by
  obtain ⟨hwell, hrest⟩ := List.forall_mem_cons.1 h
  rw [regularDefinition?, SyntaxTree.regularPath?_eq hwell hname]
  exact w.regularPass?_eq _ _ hrest

/-- **A call is visited by its receiver.** The receiver is missing or a
node, and a local that is read has a name. -/
theorem regularCall?_eq {receiver : SyntaxTree} {callee : String} (span : LineSpan)
    (hreceiver : receiver.name? = none) (h : ∀ t ∈ receiver :: ts, t.WellFormed) :
    w.regularCall? receiver callee ts span ctx =
      some (w.visitCall (receiver :: .name callee :: ts) span ctx) := by
  obtain ⟨hwell, hts⟩ := List.forall_mem_cons.1 h
  unfold regularCall? visitCall
  by_cases hempty : callee = ""
  · rw [if_pos hempty]
    simp only [hempty, if_true, pass, siblings_cons_name]
    exact w.regularPass?_eq _ _ h
  · simp only [hempty, if_false]
    -- of the receivers the visit has an answer for, only a name is left out
    cases hwell with
    | absent =>
      by_cases hmarker : callee ∈ markers
      · simp only [if_pos hmarker]
        exact w.regularPass?_eq _ _ hts
      · simp only [if_neg hmarker]
        exact w.regularPass?_eq _ _ hts
    | name text => cases hreceiver
    | @node kind children span' tag hlayout _ _ =>
      cases kind with
      | localRead =>
        obtain ⟨x, rfl⟩ := hlayout
        exact w.regularPass?_eq _ _ h
      | call => exact w.regularPass?_eq _ _ h
      | _ =>
        simp only [pass, siblings_cons_name]
        exact w.regularPass?_eq _ _ h

/-- **A well-formed node is visited by its layout**: no other layout needs an
answer. -/
theorem regularVisit?_eq {s : Step} (h : s.tree.WellFormed) :
    w.regularVisit? s.kind s.children s.span ctx =
      some (w.visit s.kind s.children s.span ctx) := by
  obtain ⟨kind, children, span, tag, elders⟩ := s
  have hchildren : ∀ c ∈ children, c.WellFormed := h.children
  -- the layout says what the children are, and there both visits agree
  cases h with
  | node hlayout _ _ =>
    cases kind with
    | moduleDef =>
      obtain ⟨name, body, rfl, hname⟩ := hlayout
      exact w.regularDefinition?_eq ctx _ _ hname hchildren
    | classDef =>
      obtain ⟨name, superclass, body, rfl, hname, -⟩ := hlayout
      exact w.regularDefinition?_eq ctx _ _ hname hchildren
    | methodDef =>
      obtain ⟨x, rest, rfl⟩ := hlayout
      exact w.regularPass?_eq _ _ (List.forall_mem_cons.1 hchildren).2
    | singletonDef =>
      obtain ⟨receiver, x, rest, rfl⟩ := hlayout
      have hnodes : ∀ c ∈ receiver :: rest, c.WellFormed := fun c hc => hchildren c (by grind)
      exact w.regularPass?_eq _ _ hnodes
    | constant =>
      obtain ⟨qualifier, x, rfl, hqualifier⟩ := hlayout
      have hpath := SyntaxTree.regularPath?_eq (hchildren qualifier (by simp)) hqualifier []
      simp only [regularVisit?, visit, hpath, SyntaxTree.constPath_constant, Option.map_some]
    | call =>
      obtain ⟨receiver, x, arguments, rfl, hreceiver, -⟩ := hlayout
      have hnodes : ∀ c ∈ receiver :: arguments, c.WellFormed := fun c hc =>
        hchildren c (by grind)
      exact w.regularCall?_eq ctx span hreceiver hnodes
    | root =>
      obtain rfl : children = [] := hlayout
      rfl
    | localRead =>
      obtain ⟨x, rfl⟩ := hlayout
      rfl
    | localAssign =>
      obtain ⟨x, value, rfl, -⟩ := hlayout
      exact w.regularPass?_eq _ _ (List.forall_mem_cons.1 hchildren).2
    | other => exact w.regularPass?_eq _ _ hchildren

end

end Walker

end ConstGraph
