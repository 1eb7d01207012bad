import ConstGraph.Proofs.ConstantsAndCalls

/-!
# Calls on what calls return

A chained call is a call whose receiver is a call. The walk tells it by the
kind of the receiver's node, and a call with a block is not of the kind of
calls: together with its block it becomes a node of no particular kind. So
a chained call is reported, on an unknown type, exactly if its receiver has
no block of its own (`mention?_chained`). `chained_calls_reported` says this
of the relations of a whole file.
-/

namespace ConstGraph

namespace ConcreteNode

/-- The node calls a method by its name on what another such call returns. -/
structure Chains (n receiver : ConcreteNode) : Prop where
  /-- It is a call. -/
  isSend : n.IsSend
  /-- The method has a name. -/
  named : n.callee ≠ ""
  /-- The receiver is this node. -/
  on : n.child? "receiver" = some receiver
  /-- That is a call too. -/
  receiver_isSend : receiver.IsSend

end ConcreteNode

namespace Outline

/-- A call becomes a node of the kind of calls, unless it has a block. -/
theorem kind?_of_build_send {n : ConcreteNode} (hn : n.IsSend) {depth : Nat}
    {locals : Address → String → Bool} {t : SyntaxTree}
    (h : (within depth n).build locals = .ok [t]) :
    t.kind? = some (if n.child? "block" = none then .call else .other) := by
  cases depth with
  | zero => cases h
  | succ depth =>
    cases hblock : n.child? "block" with
    | none =>
      rw [within_send hn hblock] at h
      obtain ⟨us, -, hgather⟩ := build_group h
      obtain ⟨span, -, htree⟩ := gather_node hgather
      cases htree
      rfl
    | some b =>
      rw [within_send_block hn hblock] at h
      obtain ⟨us, -, hgather⟩ := build_group h
      obtain ⟨span, -, htree⟩ := gather_node hgather
      cases htree
      rfl

end Outline

open Outline

variable {n receiver : ConcreteNode}

/-- **What becomes of a chained call** is a call on a result, unless the
receiver has a block: then it mentions nothing. -/
theorem mention?_chained (hchain : n.Chains receiver) {depth : Nat}
    {locals : Address → String → Bool} {s : Step}
    (h : (send (within depth) n).build locals = .ok [s.tree]) :
    s.mention? = if receiver.child? "block" = none then some (.onResult n.callee) else none := by
  obtain ⟨hkind, -, r, args, hr, hchildren⟩ := build_send (proper_within depth) h
  have hcall := Step.call?_eq_some hkind hchildren hchain.named
  rw [hchain.on] at hr
  have hkind? := kind?_of_build_send hchain.receiver_isSend hr
  cases r with
  | node kind children span tag =>
    by_cases hblock : receiver.child? "block" = none
    · rw [if_pos hblock] at hkind? ⊢
      obtain rfl := Option.some.inj hkind?
      rw [Step.mention?, hkind, hcall]
    · rw [if_neg hblock] at hkind? ⊢
      obtain rfl := Option.some.inj hkind?
      rw [Step.mention?, hkind, hcall]
  | _ => cases hkind?

namespace ConcreteNode

variable {root : ConcreteNode} {t : SyntaxTree} {w : Walker} {ctx : WalkContext} {here : Address}
  {depth : Nat}

/-- What is reported of a chained call: its method, on an unknown type. -/
theorem report_chained (h : root.toSyntax = .ok t) (hchain : n.Chains receiver)
    (hat : root.outline.at? here = some (send (within depth) n)) {r : Relation}
    (hr : (here, r) ∈ root.outline.reports w ctx t) :
    receiver.child? "block" = none ∧ r.path = ["Untyped"] ∧ r.callee = n.callee ∧
      r.line = n.line := by
  obtain ⟨p, m, -, hbuild, hm, rfl⟩ := exists_of_mem_reports h hr hat
  obtain ⟨-, hspan, -⟩ := build_send (proper_within depth) hbuild
  rw [mention?_chained hchain hbuild] at hm
  split at hm
  · next hblock =>
    cases hm
    exact ⟨hblock, rfl, rfl, first_of_lines hspan⟩
  · cases hm

/-- A chained call is reported if its receiver has no block, unless it is
taken apart. -/
theorem exists_report_chained (h : root.toSyntax = .ok t) (hchain : n.Chains receiver)
    (hat : root.outline.at? here = some (send (within depth) n)) (hout : root.outline.Outside here)
    (hwhole : ¬ root.outline.TakenApart here) (hblock : receiver.child? "block" = none) :
    ∃ r, (here, r) ∈ root.outline.reports w ctx t := by
  obtain ⟨p, -, hbuild, hreports⟩ := exists_site w ctx h hat rfl hout hwhole
  have hm := mention?_chained hchain hbuild
  rw [if_pos hblock] at hm
  exact ⟨_, (hreports _).2 ⟨_, hm, rfl⟩⟩

/-- Of a call with a block only the call itself is reported. -/
theorem eq_sendPlace (h : root.toSyntax = .ok t) (hn : n.IsSend)
    (hat : root.outline.at? here = some (within (depth + 1) n)) {r : Relation}
    (hr : (here, r) ∈ root.outline.reports w ctx t) : n.sendPlace here = here := by
  cases hblock : n.child? "block" with
  | none => exact sendPlace_of_none hblock here
  | some b =>
    rw [within_send_block hn hblock] at hat
    cases isMention_of_mem_reports h hr hat

end ConcreteNode

/-- Of records with different keys, the only one that passes a test. -/
theorem filter_eq_singleton {α β : Type} {l : List (α × β)} (hl : (l.map Prod.fst).Nodup)
    {test : α × β → Bool} {x : α × β} (hx : x ∈ l) (hpass : test x)
    (hall : ∀ y ∈ l, test y → y.1 = x.1) : l.filter test = [x] := by
  refine List.perm_singleton.1 ((List.perm_ext_iff_of_nodup ?_ (List.nodup_singleton x)).2 ?_)
  · exact hl.of_map.filter test
  · intro y
    rw [List.mem_filter, List.mem_singleton]
    constructor
    · rintro ⟨hy, htest⟩
      exact List.inj_on_of_nodup_map hl hy hx (hall y hy htest)
    · rintro rfl
      exact ⟨hx, hpass⟩

namespace FileAnalysis

/-- **A chained call is reported once, if its receiver has no block.** Every
relation of a file that is analysed has a place, and no two have the same.
For every chained call of the file that a walk comes to, one relation is
found at its own places, on an unknown type and with the method and the line
of the call, if the receiver has no block; and none is if it has one. A call
without a block that stands where another call has its block is taken apart
and not reported either. -/
theorem chained_calls_reported {a b : FileAnalysis} {root : ConcreteNode}
    (h : a.parseSource root = (b, .ok ())) :
    b.result.relations = (a.reports root).map Prod.snd ∧
      ((a.reports root).map Prod.fst).Nodup ∧
      ∀ here depth n receiver, root.outline.at? here = some (within depth n) →
        root.outline.Outside here → n.Chains receiver →
        let found := (a.reports root).filter fun x => x.1 = here ∨ x.1 = n.sendPlace here
        (receiver.child? "block" = none → ¬ root.outline.TakenApart (n.sendPlace here) →
          ∃ r, found = [(n.sendPlace here, r)] ∧ r.path = ["Untyped"] ∧ r.callee = n.callee ∧
            r.line = n.startRow + 1) ∧
        (receiver.child? "block" ≠ none ∨ root.outline.TakenApart (n.sendPlace here) →
          found = []) := by
  obtain ⟨t, ht, hresult, hreports⟩ := exists_toSyntax h
  rw [hresult, hreports]
  refine ⟨(ConcreteNode.map_snd_reports _ _ ht).symm, ConcreteNode.nodup_reports _ _ ht, ?_⟩
  intro here depth n receiver hat hout hchain found
  obtain ⟨depth, -, rfl, -⟩ := ConcreteNode.exists_build_within ht hat
  have hsend := at?_sendPlace hchain.isSend hat
  -- whatever is found, is found where the call itself is
  have hplace : ∀ x ∈ root.outline.reports ⟨a.file, a.infer⟩ {} t,
      x.1 = here ∨ x.1 = n.sendPlace here → x.1 = n.sendPlace here := by
    rintro ⟨c, r⟩ hx (rfl | hc)
    · exact (ConcreteNode.eq_sendPlace ht hchain.isSend hat hx).symm
    · exact hc
  constructor
  · intro hblock hwhole
    obtain ⟨r, hr⟩ := ConcreteNode.exists_report_chained ht hchain hsend
      (hout.sendPlace hchain.isSend hat) hwhole hblock
    obtain ⟨-, hpath, hcallee, hline⟩ := ConcreteNode.report_chained ht hchain hsend hr
    refine ⟨r, ?_, hpath, hcallee, hline⟩
    exact filter_eq_singleton (ConcreteNode.nodup_reports _ _ ht) hr (by simp)
      fun y hy hfound => hplace y hy (by simpa using hfound)
  · intro hnot
    refine List.filter_eq_nil_iff.2 fun x hx hfound => ?_
    obtain ⟨c, r⟩ := x
    obtain rfl : c = n.sendPlace here := hplace (c, r) hx (by simpa using hfound)
    rcases hnot with hblock | happart
    · exact hblock (ConcreteNode.report_chained ht hchain hsend hx).1
    · obtain ⟨p, m, hmem, -⟩ := ConcreteNode.mem_reports.1 hx
      exact not_takenApart_of_mem_places (List.of_mem_zip hmem).1 happart

/-! ## Two chains -/

/-- A call of `b`, with something behind it. -/
def innerCall (behind : ConcreteNode) : ConcreteNode where
  type := "call"
  field := some "receiver"
  children := [{ type := "identifier", field := some "method", bytes := [98] }, behind]

/-- A call of `c` on the call of `b`, with a block of its own. -/
def outerCall (behind : ConcreteNode) : ConcreteNode where
  type := "call"
  startRow := 1
  endRow := 1
  children := [innerCall behind,
    { type := "identifier", field := some "method", bytes := [99] },
    { type := "block", field := some "block" }]

/-- A program that is just the chain. -/
def chainProgram (behind : ConcreteNode) : ConcreteNode where
  type := "program"
  children := [outerCall behind]

/-- The argument list of `b(D)`. -/
def oneArgument : ConcreteNode where
  type := "argument_list"
  field := some "arguments"
  children := [{ type := "constant", bytes := [68] }]

/-- The block of `b { D }`. -/
def oneStatement : ConcreteNode where
  type := "block"
  field := some "block"
  children := [{ type := "constant", bytes := [68] }]

theorem chains_outerCall (behind : ConcreteNode) :
    (outerCall behind).Chains (innerCall behind) where
  isSend := ⟨rfl, rfl⟩
  named := by
    change Text.Utf8.decodeLossy [99] ≠ ""
    decide +kernel
  on := rfl
  receiver_isSend := ⟨rfl, rfl⟩

/-- In `b(D).c { }` the call of `c` is reported. -/
theorem chained_on_arguments :
    ∃ b, ({ file := "a.rb" } : FileAnalysis).parseSource (chainProgram oneArgument) = (b, .ok ()) ∧
      ∃ r, (({ file := "a.rb" } : FileAnalysis).reports (chainProgram oneArgument)).filter
        (fun x => x.1 = [0] ∨ x.1 = [0, 0]) = [([0, 0], r)] ∧
          r.path = ["Untyped"] ∧ r.callee = "c" ∧ r.line = 2 := by
  have hparse : ({ file := "a.rb" } : FileAnalysis).parseSource (chainProgram oneArgument) =
      ((({ file := "a.rb" } : FileAnalysis).parseSource (chainProgram oneArgument)).1, .ok ()) :=
    Prod.ext rfl (by decide +kernel)
  obtain ⟨-, -, hchains⟩ := chained_calls_reported hparse
  have hout : (chainProgram oneArgument).outline.Outside [0] :=
    (outside_nil (chainProgram oneArgument).outline).concat rfl rfl
  exact ⟨_, hparse, (hchains [0] 999 (outerCall oneArgument) (innerCall oneArgument) rfl hout
    (chains_outerCall oneArgument)).1 rfl (not_takenApart_concat rfl rfl)⟩

/-- In `b { D }.c { }` it is not, nor is anything else on an unknown type. -/
theorem chained_on_block_unreported :
    ∃ b, ({ file := "a.rb" } : FileAnalysis).parseSource (chainProgram oneStatement) = (b, .ok ()) ∧
      (chainProgram oneStatement).outline.at? [0] = some (within 999 (outerCall oneStatement)) ∧
      (chainProgram oneStatement).outline.Outside [0] ∧
      (outerCall oneStatement).Chains (innerCall oneStatement) ∧
      ∀ r ∈ b.result.relations, r.path ≠ ["Untyped"] := by
  have hnone : (({ file := "a.rb" } : FileAnalysis).parseSource
      (chainProgram oneStatement)).1.result.relations.all (·.path != ["Untyped"]) = true := by
    decide +kernel
  refine ⟨_, Prod.ext rfl (by decide +kernel), rfl,
    (outside_nil (chainProgram oneStatement).outline).concat rfl rfl, chains_outerCall oneStatement,
    fun r hr => ?_⟩
  simpa using List.all_eq_true.1 hnone r hr

end FileAnalysis

end ConstGraph
