import ConstGraph.Proofs.Reports

/-!
# Constants and calls as they are written

The path a constant is written with and the method a call names are said
here of the concrete tree (`ConcreteNode.Spells`, `ConcreteNode.callee`),
and carried over to what is built: a constant becomes a node that names the
path it spells (`constPath_of_build`, `spelled?_within`), and a call becomes
a call of its method at a place of its own (`at?_sendPlace`, `build_send`).
In turn the kind of a node tells how it was written (`makes_of_kind?`).
-/

namespace ConstGraph

/-- A node starts on the line it is written on. -/
theorem ConcreteNode.first_of_lines {n : ConcreteNode} {span : LineSpan} (h : n.lines = .ok span) :
    span.first = n.line := by
  unfold lines LineSpan.ofLines at h
  split at h <;> cases h
  rfl

/-! ## What is written -/

namespace ConcreteNode

/-- The node is a constant, bare or behind `::`. -/
def IsConstant (n : ConcreteNode) : Prop :=
  n.construct = .constant ∨
    n.construct = .qualified ∧ ∃ c, n.child? "name" = some c ∧ c.construct = .constant

/-- The path a constant is written with. What is not a constant itself adds
nothing in front of a `::`. -/
inductive Spells : ConcreteNode → ConstPath → Prop where
  /-- A bare constant. -/
  | bare {n : ConcreteNode} : n.construct = .constant → Spells n [n.text]
  /-- A constant from the root. -/
  | rooted {n c : ConcreteNode} : n.construct = .qualified → n.child? "name" = some c →
      c.construct = .constant → n.child? "scope" = none → Spells n ["", c.text]
  /-- A constant inside another one. -/
  | inside {n c q : ConcreteNode} {path : ConstPath} : n.construct = .qualified →
      n.child? "name" = some c → c.construct = .constant → n.child? "scope" = some q →
      Spells q path → Spells n (path ++ [c.text])
  /-- A constant inside what some expression gives. -/
  | behind {n c q : ConcreteNode} : n.construct = .qualified → n.child? "name" = some c →
      c.construct = .constant → n.child? "scope" = some q → ¬ q.IsConstant → Spells n [c.text]

theorem Spells.isConstant {n : ConcreteNode} {path : ConstPath} (h : n.Spells path) :
    n.IsConstant := by
  cases h with
  | bare hn => exact Or.inl hn
  | rooted hn hname hc => exact Or.inr ⟨hn, _, hname, hc⟩
  | inside hn hname hc => exact Or.inr ⟨hn, _, hname, hc⟩
  | behind hn hname hc => exact Or.inr ⟨hn, _, hname, hc⟩

theorem spells_bare {n : ConcreteNode} {path : ConstPath} (hn : n.construct = .constant) :
    n.Spells path ↔ path = [n.text] := by
  constructor
  · intro h
    cases h with
    | bare _ => rfl
    | rooted hn' | inside hn' | behind hn' => rw [hn] at hn'; cases hn'
  · rintro rfl
    exact .bare hn

theorem spells_rooted {n c : ConcreteNode} {path : ConstPath} (hn : n.construct = .qualified)
    (hname : n.child? "name" = some c) (hc : c.construct = .constant)
    (hscope : n.child? "scope" = none) : n.Spells path ↔ path = ["", c.text] := by
  constructor
  · intro h
    cases h with
    | bare hn' => rw [hn] at hn'; cases hn'
    | rooted _ hname' => rw [hname] at hname'; cases hname'; rfl
    | inside _ _ _ hscope' | behind _ _ _ hscope' => rw [hscope] at hscope'; cases hscope'
  · rintro rfl
    exact .rooted hn hname hc hscope

theorem spells_inside {n c q : ConcreteNode} {path : ConstPath} (hn : n.construct = .qualified)
    (hname : n.child? "name" = some c) (hc : c.construct = .constant)
    (hscope : n.child? "scope" = some q) :
    n.Spells path ↔
      (∃ outer, q.Spells outer ∧ path = outer ++ [c.text]) ∨ ¬ q.IsConstant ∧ path = [c.text] := by
  constructor
  · intro h
    cases h with
    | bare hn' => rw [hn] at hn'; cases hn'
    | rooted _ _ _ hscope' => rw [hscope] at hscope'; cases hscope'
    | inside _ hname' _ hscope' hq =>
      rw [hname] at hname'
      rw [hscope] at hscope'
      cases hname'
      cases hscope'
      exact Or.inl ⟨_, hq, rfl⟩
    | behind _ hname' _ hscope' hq =>
      rw [hname] at hname'
      rw [hscope] at hscope'
      cases hname'
      cases hscope'
      exact Or.inr ⟨hq, rfl⟩
  · rintro (⟨outer, hq, rfl⟩ | ⟨hq, rfl⟩)
    · exact .inside hn hname hc hscope hq
    · exact .behind hn hname hc hscope hq

/-- The node is a call of `super`. -/
def isSuper (n : ConcreteNode) : Bool := (n.child? "method").any (·.type == "super")

/-- The node is a call of a method by its name. -/
def IsSend (n : ConcreteNode) : Prop := n.construct = .call ∧ n.isSuper = false

/-- The method a call names; `f.(x)` calls the method `call`. -/
def callee (n : ConcreteNode) : String :=
  match n.child? "method" with
  | none => "call"
  | some m => m.text

/-- The node is an assignment to an identifier. -/
def AssignsLocal (n : ConcreteNode) (x : String) : Prop :=
  n.construct = .assignment ∧
    ∃ left, n.child? "left" = some left ∧ left.type = "identifier" ∧ left.text = x

/-- What a node that becomes one of some kind is written as. -/
def Makes (n : ConcreteNode) : NodeKind → Prop
  | .constant => n.IsConstant
  | .root => False
  | .call => n.IsSend ∧ n.child? "block" = none
  | .localAssign => ∃ x, n.AssignsLocal x
  | _ => True

end ConcreteNode

/-- The kind of node that comes of an outline, if it does not depend on the
locals. -/
def Outline.kind? : Outline → Option NodeKind
  | group (.node kind _ _) _ => some kind
  | _ => none

namespace Outline

/-- **The kind of a node tells how it was written**, for the kinds that
mention or assign something. -/
theorem makes_of_kind? {depth : Nat} {n : ConcreteNode} {kind : NodeKind}
    (h : (within (depth + 1) n).kind? = some kind) : n.Makes kind := by
  have hother : ∀ tag ps, (tagged n tag ps).kind? = some kind → n.Makes kind := by
    rintro tag ps hkind
    cases hkind
    trivial
  rw [within, ofNode] at h
  cases hn : n.construct with
  | constant =>
    rw [hn] at h
    cases h
    exact Or.inl hn
  | qualified =>
    rw [hn] at h
    change (qualified (within depth) n).kind? = _ at h
    unfold qualified at h
    split at h
    · next c hname =>
      split at h
      · next hc =>
        cases h
        exact Or.inr ⟨hn, c, hname, hc⟩
      · exact hother _ _ h
    · exact hother _ _ h
  | call =>
    rw [hn] at h
    change (call (within depth) n).kind? = _ at h
    unfold call at h
    split at h
    · exact hother _ _ h
    · next hsuper =>
      split at h
      · next hblock =>
        cases h
        exact ⟨⟨hn, by simpa [ConcreteNode.isSuper] using hsuper⟩, hblock⟩
      · exact hother _ _ h
  | identifier => rw [hn] at h; cases h
  | assignment =>
    rw [hn] at h
    change (assignment (within depth) depth n).kind? = _ at h
    unfold assignment at h
    split at h
    · exact hother _ _ h
    · next left hleft =>
      dsimp only at h
      split at h
      · next htype =>
        cases h
        exact ⟨left.text, hn, left, hleft, htype, rfl⟩
      all_goals exact hother _ _ h
  | moduleDef | classDef | method | singletonMethod => rw [hn] at h; cases h; trivial
  | _ => rw [hn] at h; exact hother _ _ h

end Outline

/-! ## Constants -/

namespace SyntaxTree

/-- Names put behind a chain stay behind it. -/
theorem constChain_append (names more : List String) (t : SyntaxTree) :
    t.constChain (names ++ more) = ((t.constChain names).1 ++ more, (t.constChain names).2) := by
  fun_induction constChain names t with
  | case1 names qualifier rest span tag ih =>
    rw [constChain, ← List.append_assoc]
    exact ih
  | case2 names t hnot =>
    cases t with
    | node kind children span tag =>
      cases kind with
      | constant =>
        cases children with
        | nil => rfl
        | cons qualifier rest => exact (hnot qualifier rest span tag rfl).elim
      | _ => rfl
    | _ => rfl

/-- A constant adds its last child, if that is a name, to the path of its
first. -/
theorem constPath_cons (qualifier : SyntaxTree) (rest : List SyntaxTree) (span : LineSpan)
    (tag : String) (base : ConstPath) :
    (node .constant (qualifier :: rest) span tag).constPath base =
      qualifier.constPath base ++ ((qualifier :: rest).getLast?.bind name?).toList := by
  have hchain : (node .constant (qualifier :: rest) span tag).constChain [] =
      qualifier.constChain ([] ++ ((qualifier :: rest).getLast?.bind name?).toList) := by
    rw [constChain, List.append_nil, List.nil_append]
  unfold constPath
  rw [hchain, constChain_append, List.append_assoc]

/-- A constant adds its name to the path of its qualifier. -/
theorem constPath_constant (qualifier : SyntaxTree) (x : String) (span : LineSpan) (tag : String)
    {base : ConstPath} :
    (node .constant [qualifier, .name x] span tag).constPath base =
      qualifier.constPath base ++ [x] :=
  constPath_cons qualifier [.name x] span tag base

end SyntaxTree

namespace Outline

/-- The path a constant is written with, by its outline; the bare `::` is
written as the root. -/
def spelled? : Outline → Option ConstPath
  | group (.node .constant _ _) (qualifier :: leaf (.name x) :: _) =>
    some ((spelled? qualifier).getD [] ++ [x])
  | group (.node .root _ _) _ => some [""]
  | _ => none

theorem buildAll_cons_single {locals : Address → String → Bool} {i : Nat} {o : Outline}
    {os : List Outline} {us : List SyntaxTree} (ho : o.isSingle)
    (h : buildAll locals i (o :: os) = .ok us) :
    ∃ t vs, o.build (fun a => locals (i :: a)) = .ok [t] ∧ buildAll locals (i + 1) os = .ok vs ∧
      us = t :: vs := by
  obtain ⟨ts, vs, hts, hvs, rfl⟩ := buildAll_cons h
  obtain ⟨t, rfl⟩ := exists_build_single ho hts
  exact ⟨t, vs, hts, hvs, rfl⟩

/-- **What is built of a constant names the path it is written with.** -/
theorem constPath_of_build {o : Outline} (ho : o.Proper) (hsingle : o.isSingle)
    {locals : Address → String → Bool} {t : SyntaxTree} (h : o.build locals = .ok [t]) :
    t.constPath [] = o.spelled?.getD [] := by
  induction ho generalizing locals t with
  | @leaf u hu =>
    cases h
    cases u with
    | node kind children span tag => cases hu
    | _ => rfl
  | read n =>
    obtain ⟨span, -, htree⟩ := build_read h
    cases htree
    cases locals [] n.text <;> rfl
  | declare n => cases h
  | tooDeep => cases h
  | @group g ps hps hfits ih =>
    cases g with
    | node kind tag n =>
      obtain ⟨us, hus, hgather⟩ := build_group h
      obtain ⟨span, -, htree⟩ := gather_node hgather
      cases htree
      cases kind with
      | constant =>
        obtain ⟨qualifier, x, rfl, hqualifier⟩ := hfits
        obtain ⟨q, vs, hq, hvs, rfl⟩ := buildAll_cons_single hqualifier hus
        cases hvs
        change (SyntaxTree.node .constant [q, .name x] span tag).constPath [] = _
        rw [SyntaxTree.constPath_constant, ih qualifier List.mem_cons_self hqualifier hq]
        rfl
      | _ => rfl
    | _ => cases hsingle

section

variable {n : ConcreteNode} {depth : Nat}

theorem within_bare (hn : n.construct = .constant) :
    within (depth + 1) n = node n .constant [leaf .absent, name n.text] := by
  simp [within, ofNode, hn]

theorem within_qualified {c : ConcreteNode} (hn : n.construct = .qualified)
    (hname : n.child? "name" = some c) (hc : c.construct = .constant) :
    within (depth + 1) n = node n .constant [qualifier (within depth) n, name c.text] := by
  simp [within, ofNode, qualified, hn, hname, hc]

theorem exists_within_constant (hn : n.IsConstant) (depth : Nat) :
    ∃ qualifier x, within (depth + 1) n = node n .constant [qualifier, name x] := by
  obtain hbare | ⟨hqualified, c, hname, hc⟩ := hn
  · exact ⟨_, _, within_bare hbare⟩
  · exact ⟨_, _, within_qualified hqualified hname hc⟩

theorem spelled?_of_not_isConstant (h : ¬ n.IsConstant) :
    (within (depth + 1) n).spelled? = none := by
  have hmakes : ∀ kind, (within (depth + 1) n).kind? = some kind → n.Makes kind :=
    fun _ => makes_of_kind?
  unfold spelled?
  split
  · next hwithin => exact (h (hmakes .constant (by rw [hwithin]; rfl))).elim
  · next hwithin => exact (hmakes .root (by rw [hwithin]; rfl)).elim
  · rfl

/-- A constant spells something, and nothing else does. -/
theorem isSome_spelled?_within :
    (within (depth + 1) n).spelled?.isSome ↔ n.IsConstant := by
  constructor
  · intro hsome
    by_contra hn
    rw [spelled?_of_not_isConstant hn] at hsome
    cases hsome
  · intro hn
    obtain ⟨qualifier, x, hwithin⟩ := exists_within_constant hn depth
    rw [hwithin]
    rfl

/-- **The outline of a constant says what the constant spells.** -/
theorem spelled?_within {locals : Address → String → Bool} {ts : List SyntaxTree}
    (h : (within depth n).build locals = .ok ts) {path : ConstPath} :
    (within depth n).spelled? = some path ↔ n.Spells path := by
  induction depth generalizing n locals ts path with
  | zero => cases h
  | succ depth ih =>
    by_cases hconstant : n.IsConstant
    · obtain hn | ⟨hn, c, hname, hc⟩ := hconstant
      · rw [within_bare hn, ConcreteNode.spells_bare hn]
        exact Option.some_inj.trans eq_comm
      · rw [within_qualified hn hname hc] at h ⊢
        obtain ⟨us, hus, -⟩ := build_group h
        obtain ⟨vs, -, hvs, -, -⟩ := buildAll_cons hus
        change some ((qualifier (within depth) n).spelled?.getD [] ++ [c.text]) = some path ↔ _
        rw [Option.some_inj, eq_comm]
        cases hscope : n.child? "scope" with
        | none =>
          rw [ConcreteNode.spells_rooted hn hname hc hscope]
          simp [qualifier, hscope, node, spelled?]
        | some q =>
          have hq : qualifier (within depth) n = within depth q := by
            simp [qualifier, hscope]
          rw [hq] at hvs ⊢
          have hconstant : (within depth q).spelled?.isSome ↔ q.IsConstant := by
            cases depth with
            | zero => cases hvs
            | succ depth => exact isSome_spelled?_within
          rw [ConcreteNode.spells_inside hn hname hc hscope, ← hconstant]
          simp only [← ih hvs]
          cases (within depth q).spelled? <;> simp
    · rw [spelled?_of_not_isConstant hconstant]
      exact iff_of_false (Option.some_ne_none path).symm fun hpath => hconstant hpath.isConstant

end

end Outline

/-! ## Calls -/

namespace ConcreteNode

/-- Where the call itself is, in the outline of a node at `here`: together
with its block it makes up another node. -/
def sendPlace (n : ConcreteNode) (here : Outline.Address) : Outline.Address :=
  if (n.child? "block").isSome then here ++ [0] else here

theorem sendPlace_of_none {n : ConcreteNode} (h : n.child? "block" = none)
    (here : Outline.Address) : n.sendPlace here = here := by
  simp [sendPlace, h]

theorem sendPlace_of_some {n b : ConcreteNode} (h : n.child? "block" = some b)
    (here : Outline.Address) : n.sendPlace here = here ++ [0] := by
  simp [sendPlace, h]

end ConcreteNode

namespace Outline

variable {n : ConcreteNode} {depth : Nat}

theorem within_send (h : n.IsSend) (hblock : n.child? "block" = none) :
    within (depth + 1) n = send (within depth) n := by
  obtain ⟨hn, hsuper⟩ := h
  have hcall : within (depth + 1) n = call (within depth) n := by
    simp [within, ofNode, hn]
  rw [hcall, call, if_neg (by simpa [ConcreteNode.isSuper] using hsuper), hblock]

theorem within_send_block (h : n.IsSend) {b : ConcreteNode} (hblock : n.child? "block" = some b) :
    within (depth + 1) n =
      tagged n "block" [send (within depth) n, group .splice [within depth b]] := by
  obtain ⟨hn, hsuper⟩ := h
  have hcall : within (depth + 1) n = call (within depth) n := by
    simp [within, ofNode, hn]
  rw [hcall, call, if_neg (by simpa [ConcreteNode.isSuper] using hsuper), hblock]

theorem at?_sendPlace {o : Outline} {here : Address} (h : n.IsSend)
    (hat : o.at? here = some (within (depth + 1) n)) :
    o.at? (n.sendPlace here) = some (send (within depth) n) := by
  cases hblock : n.child? "block" with
  | none => rw [ConcreteNode.sendPlace_of_none hblock, hat, within_send h hblock]
  | some b =>
    rw [within_send_block h hblock] at hat
    rw [ConcreteNode.sendPlace_of_some hblock]
    exact at?_concat hat 0

theorem Outside.sendPlace {o : Outline} {here : Address} (hout : o.Outside here) (h : n.IsSend)
    (hat : o.at? here = some (within (depth + 1) n)) : o.Outside (n.sendPlace here) := by
  cases hblock : n.child? "block" with
  | none => rwa [ConcreteNode.sendPlace_of_none hblock]
  | some b =>
    rw [within_send_block h hblock] at hat
    rw [ConcreteNode.sendPlace_of_some hblock]
    exact hout.concat hat rfl

/-- **A call is built as a call of its method on its receiver.** -/
theorem build_send {out : ConcreteNode → Outline} (hout : SingleProper out)
    {locals : Address → String → Bool} {s : Step} (h : (send out n).build locals = .ok [s.tree]) :
    s.kind = .call ∧ n.lines = .ok s.span ∧ ∃ receiver args,
      (optional out (n.child? "receiver")).build (fun b => locals (0 :: b)) = .ok [receiver] ∧
      s.children = receiver :: .name n.callee :: args := by
  obtain ⟨hkind, hspan, hchildren⟩ := build_node h
  obtain ⟨receiver, us, hreceiver, hus, hall⟩ :=
    buildAll_cons_single (proper_optional hout _).2 hchildren
  obtain ⟨callee, args, hcallee, -, rfl⟩ := buildAll_cons_single rfl hus
  cases hcallee
  exact ⟨hkind, hspan, receiver, args, hreceiver, hall⟩

end Outline

namespace Step

variable {s : Step} {receiver : SyntaxTree} {callee : String} {args : List SyntaxTree}

theorem call?_eq_some (hkind : s.kind = .call)
    (hchildren : s.children = receiver :: .name callee :: args) (hcallee : callee ≠ "") :
    s.call? = some (receiver, callee) := by
  rw [call?, hkind, hchildren]
  exact if_neg hcallee

end Step

end ConstGraph
