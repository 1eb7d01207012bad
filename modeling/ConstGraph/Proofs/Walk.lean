import ConstGraph.Walk.Run
import Mathlib.Logic.Function.Iterate

/-!
# The walk as a recursion on the tree

`collect` says what a walk finds without a stack: what the node itself is
a record of, then what its chosen children come to, from left to right. A
context is handed on from sibling to sibling, so a local assignment is
seen by the siblings after it. `descent` is the choice of the children and
the context the first of them stands in; it depends on neither the file
nor the inference.

`walk_eq_collect` is the agreement: the loop over a stack comes to what
the recursion says, and takes no more turns than the tree has parts. Its
invariant is that what has been found, together with what is still on the
stack, is always the same.
-/

namespace ConstGraph

namespace WalkResult

instance : Append WalkResult :=
  ⟨fun a b => ⟨a.definitions ++ b.definitions, a.relations ++ b.relations⟩⟩

theorem append_def (a b : WalkResult) :
    a ++ b = ⟨a.definitions ++ b.definitions, a.relations ++ b.relations⟩ := rfl

@[simp] theorem empty_append (a : WalkResult) : WalkResult.empty ++ a = a := rfl

@[simp] theorem append_empty (a : WalkResult) : a ++ WalkResult.empty = a := by
  simp [append_def, WalkResult.empty]

theorem append_assoc (a b c : WalkResult) : a ++ b ++ c = a ++ (b ++ c) := by
  simp [append_def]

/-- The records of two walks one after the other, the sorts apart. -/
theorem ofRecords_append (xs ys : List Record) :
    ofRecords (xs ++ ys) = ofRecords xs ++ ofRecords ys := by
  simp [append_def, ofRecords]

end WalkResult

namespace Walker

/-! ## The recursion -/

/-- The operands of a call that are walked, and the context of the first
of them. -/
def callDescent (children : List SyntaxTree) (ctx : WalkContext) :
    List SyntaxTree × WalkContext :=
  match children with
  | receiver :: .name callee :: operands =>
    if callee = "" then (children, ctx)
    else
      match receiver with
      | .absent =>
        if callee ∈ markers then (operands, { ctx with inMethod := callee, callee := "" })
        else (operands, { ctx with callee })
      | .node .localRead _ _ _ | .node .call _ _ _ => (receiver :: operands, { ctx with callee })
      | _ => (children, { ctx with callee })
  | _ => (children, ctx)

/-- The children of a node that are walked, and the context of the first
of them. -/
def descent (kind : NodeKind) (children : List SyntaxTree) (ctx : WalkContext) :
    List SyntaxTree × WalkContext :=
  let method (name : SyntaxTree) : WalkContext :=
    { ctx with inMethod := name.name?.getD "", callee := "", types := .empty }
  match kind with
  | .moduleDef | .classDef =>
    (children.tail,
      { ctx with path := ((children.headD .absent).constPath ctx.path).unroot, types := .empty })
  | .methodDef => (children, method (children.headD .absent))
  | .singletonDef => (children, method (children.tail.headD .absent))
  | .constant => ([], ctx)
  | .call => callDescent children ctx
  | .root | .localRead | .localAssign | .other => (children, ctx)

/-- A visited call continues as its descent says. -/
theorem visitCall_next (w : Walker) (children : List SyntaxTree) (span : LineSpan)
    (ctx : WalkContext) :
    (w.visitCall children span ctx).next =
      w.siblings (callDescent children ctx).1 (callDescent children ctx).2 := by
  unfold visitCall callDescent
  split
  · next receiver callee operands =>
    dsimp only
    by_cases hempty : callee = ""
    · simp only [if_pos hempty]
      rfl
    · simp only [if_neg hempty]
      -- the receiver decides: none, a local, another call, or anything else
      cases receiver with
      | absent =>
        dsimp only
        by_cases hmarker : callee ∈ markers
        · simp only [if_pos hmarker]
          rfl
        · simp only [if_neg hmarker]
          rfl
      | name text => rfl
      | node kind names span tag => cases kind <;> rfl
  · next hshape =>
    cases children with
    | nil => rfl
    | cons receiver rest =>
      cases rest with
      | nil => rfl
      | cons name operands =>
        cases name with
        | name callee => exact absurd rfl (hshape receiver callee operands)
        | _ => rfl

/-- **A visited node continues as its descent says**: with the chosen
children, each in the context its elder siblings leave. -/
theorem visit_next (w : Walker) (kind : NodeKind) (children : List SyntaxTree)
    (span : LineSpan) (ctx : WalkContext) :
    (w.visit kind children span ctx).next =
      w.siblings (descent kind children ctx).1 (descent kind children ctx).2 := by
  cases kind with
  | call => exact w.visitCall_next children span ctx
  | _ => rfl

/-- The chosen operands are some of the children of the call. -/
theorem callDescent_sublist (children : List SyntaxTree) (ctx : WalkContext) :
    (callDescent children ctx).1.Sublist children := by
  unfold callDescent
  split
  · next receiver callee operands =>
    have skip : operands.Sublist (receiver :: .name callee :: operands) :=
      .cons _ (.cons _ (List.Sublist.refl _))
    have keep : (receiver :: operands).Sublist (receiver :: .name callee :: operands) :=
      .cons_cons _ (.cons _ (List.Sublist.refl _))
    split
    · exact List.Sublist.refl _
    · split
      · split <;> exact skip
      · exact keep
      · exact keep
      · exact List.Sublist.refl _
  · exact List.Sublist.refl _

/-- The chosen children are some of the node's own, so they are smaller
than the node. -/
theorem sizes_descent_lt (kind : NodeKind) (children : List SyntaxTree) (span : LineSpan)
    (tag : String) (ctx : WalkContext) :
    SyntaxTree.sizes (descent kind children ctx).1 <
      (SyntaxTree.node kind children span tag).size := by
  have hsub : (descent kind children ctx).1.Sublist children := by
    cases kind with
    | moduleDef => exact List.tail_sublist _
    | classDef => exact List.tail_sublist _
    | constant => exact List.nil_sublist _
    | call => exact callDescent_sublist children ctx
    | _ => exact List.Sublist.refl _
  have := SyntaxTree.sizes_le_of_sublist hsub
  rw [SyntaxTree.size]
  omega

/-- What a node by itself contributes. -/
def own (w : Walker) (kind : NodeKind) (children : List SyntaxTree) (span : LineSpan)
    (ctx : WalkContext) : WalkResult :=
  .ofRecords (w.visit kind children span ctx).record.toList

mutual

/-- What the walk of a tree finds: what the node contributes by itself,
then what its chosen children do. -/
def collect (w : Walker) (t : SyntaxTree) (ctx : WalkContext) : WalkResult :=
  match t with
  | .absent => .empty
  | .name _ => .empty
  | .node kind children span tag =>
    have := sizes_descent_lt kind children span tag ctx
    w.own kind children span ctx ++
      w.collectAll (descent kind children ctx).1 (descent kind children ctx).2
termination_by (t.size, 0)

/-- What the walk of siblings finds, from left to right. Each is walked in
the context the ones before it leave. -/
def collectAll (w : Walker) (ts : List SyntaxTree) (ctx : WalkContext) : WalkResult :=
  match ts with
  | [] => .empty
  | t :: rest => w.collect t ctx ++ w.collectAll rest (ctx.after w.infer t)
termination_by (SyntaxTree.sizes ts, 1)
decreasing_by
  · simp only [SyntaxTree.sizes, Prod.lex_def]
    omega
  · have := t.size_pos
    simp only [SyntaxTree.sizes, Prod.lex_def]
    omega

end

/-! ## The loop -/

/-- What the nodes on a stack come to, the topmost first. -/
def pendingResult (w : Walker) (stack : List (SyntaxTree × WalkContext)) : WalkResult :=
  stack.foldr (fun x found => w.collect x.1 x.2 ++ found) .empty

theorem pendingResult_append (w : Walker) (upper lower : List (SyntaxTree × WalkContext)) :
    w.pendingResult (upper ++ lower) = w.pendingResult upper ++ w.pendingResult lower := by
  induction upper with
  | nil => rfl
  | cons x upper ih =>
    change w.collect x.1 x.2 ++ w.pendingResult (upper ++ lower) =
      w.collect x.1 x.2 ++ w.pendingResult upper ++ w.pendingResult lower
    rw [ih, WalkResult.append_assoc]

/-- A name or a gap leaves the context as it is. -/
theorem after_of_not_isNode {t : SyntaxTree} (h : t.isNode = false) (infer : Inference)
    (ctx : WalkContext) : ctx.after infer t = ctx := by
  cases t with
  | node kind children span tag => cases h
  | _ => rfl

/-- **Pairing siblings with their contexts beforehand** comes to the same
as handing the context on from one to the next. -/
theorem pendingResult_siblings (w : Walker) (ts : List SyntaxTree) (ctx : WalkContext) :
    w.pendingResult (w.siblings ts ctx) = w.collectAll ts ctx := by
  induction ts generalizing ctx with
  | nil =>
    rw [collectAll]
    rfl
  | cons t ts ih =>
    rw [siblings, collectAll]
    split
    · next hnode =>
      change w.collect t ctx ++ w.pendingResult (w.siblings ts (ctx.after w.infer t)) = _
      rw [ih]
    · next hnode =>
      rw [ih, after_of_not_isNode (by simpa using hnode)]
      cases t with
      | node kind children span tag => simp [SyntaxTree.isNode] at hnode
      | _ => rw [collect, WalkResult.empty_append]

/-- **The invariant of the loop.** What has been found and what the stack
still comes to make up the result: a visit moves the node's own record
from the one to the other and leaves the children in its place. -/
theorem ofRecords_run (w : Walker) (stack : List (SyntaxTree × WalkContext))
    (found : List Record) :
    WalkResult.ofRecords (w.run stack found) =
      WalkResult.ofRecords found.reverse ++ w.pendingResult stack := by
  fun_induction run w stack found with
  | case1 found => exact (WalkResult.append_empty _).symm
  | case2 found kind children span tag ctx rest v hlt ih =>
    have hnext : w.pendingResult v.next =
        w.collectAll (descent kind children ctx).1 (descent kind children ctx).2 := by
      rw [← pendingResult_siblings, ← w.visit_next kind children span ctx]
    -- there is at most one record, so its place in the reversed list is its own
    have hrecord : v.record.toList.reverse = v.record.toList := by
      cases v.record <;> rfl
    rw [ih, List.reverse_append, WalkResult.ofRecords_append, pendingResult_append, hnext, hrecord]
    change _ = _ ++ (w.collect (.node kind children span tag) ctx ++ w.pendingResult rest)
    rw [collect, own]
    simp only [WalkResult.append_assoc]
    rfl
  | case3 found ctx rest hlt ih =>
    rw [ih]
    change _ = _ ++ (w.collect .absent ctx ++ w.pendingResult rest)
    rw [collect, WalkResult.empty_append]
  | case4 found text ctx rest hlt ih =>
    rw [ih]
    change _ = _ ++ (w.collect (.name text) ctx ++ w.pendingResult rest)
    rw [collect, WalkResult.empty_append]

/-- One turn of the loop: the topmost node is visited, its record noted and
its children put in its place, the first of them on top. -/
def turn (w : Walker) :
    List (SyntaxTree × WalkContext) × List Record → List (SyntaxTree × WalkContext) × List Record
  | ((.node kind children span _, ctx) :: rest, found) =>
    let v := w.visit kind children span ctx
    (v.next ++ rest, v.record.toList ++ found)
  | (_ :: rest, found) => (rest, found)
  | ([], found) => ([], found)

/-- The loop runs until the stack is empty, each turn at the cost of a part
of what is pending. -/
theorem exists_turns (w : Walker) (stack : List (SyntaxTree × WalkContext))
    (found : List Record) :
    ∃ n ≤ pendingSize stack, w.turn^[n] (stack, found) = ([], (w.run stack found).reverse) := by
  fun_induction run w stack found with
  | case1 found => exact ⟨0, Nat.zero_le _, by simp⟩
  | case2 found kind children span tag ctx rest v hlt ih =>
    obtain ⟨n, hn, hturns⟩ := ih
    exact ⟨n + 1, Nat.lt_of_le_of_lt hn hlt, hturns⟩
  | case3 found ctx rest hlt ih =>
    obtain ⟨n, hn, hturns⟩ := ih
    exact ⟨n + 1, Nat.lt_of_le_of_lt hn hlt, hturns⟩
  | case4 found text ctx rest hlt ih =>
    obtain ⟨n, hn, hturns⟩ := ih
    exact ⟨n + 1, Nat.lt_of_le_of_lt hn hlt, hturns⟩

/-- **The walk of a tree is the recursion on it**, whatever the tree, the
context and the inference; and the loop ends within as many turns as the
tree has parts. -/
theorem walk_eq_collect (w : Walker) (t : SyntaxTree) (ctx : WalkContext) :
    w.walk t ctx = w.collect t ctx ∧
      ∃ n ≤ t.size, w.turn^[n] ([(t, ctx)], []) = ([], (w.records t ctx).reverse) := by
  constructor
  · rw [walk, records, ofRecords_run]
    exact WalkResult.append_empty _
  · obtain ⟨n, hn, hturns⟩ := w.exists_turns [(t, ctx)] []
    exact ⟨n, hn, hturns⟩

end Walker

end ConstGraph
