import ConstGraph.Proofs.ConstantsAndCalls

/-!
# Constants that are assigned

An assignment reports what the expressions it evaluates report
(`ConcreteNode.Evaluates`), and nothing of its own. A constant that is the
whole left side is not evaluated; its qualifier is. But one among several
targets is taken for an expression like any other target that is no
identifier, and so it is reported as if it were read.
`assigned_constants_reported` says which places of an assignment are
reported.
-/

namespace ConstGraph

namespace ConcreteNode

/-- The targets on the left of a multiple assignment, also behind a splat
and inside parentheses. -/
inductive HasTarget : ConcreteNode → ConcreteNode → Prop where
  | outer {n c : ConcreteNode} : c ∈ n.phrases → c.type ≠ "rest_assignment" →
      c.type ≠ "destructured_left_assignment" → HasTarget n c
  | nested {n c m : ConcreteNode} : c ∈ n.phrases →
      c.type = "rest_assignment" ∨ c.type = "destructured_left_assignment" →
      HasTarget c m → HasTarget n m

/-- The expressions an assignment evaluates. -/
inductive Evaluates (n : ConcreteNode) : ConcreteNode → Prop where
  /-- The value. -/
  | value {v : ConcreteNode} : n.child? "right" = some v → Evaluates n v
  /-- The qualifier of an assigned constant. -/
  | qualifier {left q : ConcreteNode} : n.child? "left" = some left →
      left.type = "scope_resolution" → left.child? "scope" = some q → Evaluates n q
  /-- Of several targets every one that is no identifier. -/
  | target {left c : ConcreteNode} : n.child? "left" = some left →
      left.type = "left_assignment_list" → left.HasTarget c → c.construct ≠ .identifier →
      Evaluates n c
  /-- A left side of another type, such as an element or an attribute. -/
  | other {left : ConcreteNode} : n.child? "left" = some left → left.type ≠ "identifier" →
      left.type ≠ "constant" → left.type ≠ "scope_resolution" →
      left.type ≠ "left_assignment_list" → Evaluates n left

end ConcreteNode

namespace Outline

/-! ## What mentions nothing -/

/-- Nothing in the outline mentions anything. -/
def Quiet (o : Outline) : Prop := ∀ a inner, o.at? a = some inner → inner.isMention = false

theorem quiet_of_parts {o : Outline} (ho : o.isMention = false)
    (hparts : ∀ part ∈ o.parts, part.Quiet) : o.Quiet := by
  intro a inner hat
  cases a with
  | nil =>
    cases hat
    exact ho
  | cons i a =>
    obtain ⟨g, ps, part, rfl, hi, hinner⟩ := exists_part hat
    exact hparts part (List.mem_of_getElem? hi) a inner hinner

theorem quiet_of_no_parts {o : Outline} (ho : o.isMention = false) (hparts : o.parts = []) :
    o.Quiet := by
  refine quiet_of_parts ho fun part hpart => ?_
  rw [hparts] at hpart
  exact absurd hpart List.not_mem_nil

theorem quiet_leaf (t : SyntaxTree) : (leaf t).Quiet := quiet_of_no_parts rfl rfl

theorem quiet_name (x : String) : (name x).Quiet := quiet_leaf _

theorem quiet_declare (n : ConcreteNode) : (declare n).Quiet := quiet_of_no_parts rfl rfl

theorem quiet_target (n : ConcreteNode) : (target n).Quiet :=
  quiet_of_parts rfl (by simp [target, node, parts, quiet_leaf, quiet_name, quiet_declare])

/-! ## The parts of an assignment -/

section

variable {out : ConcreteNode → Outline}

/-- A target is declared, or it is an expression. -/
theorem mem_targets {depth : Nat} {n : ConcreteNode} {o : Outline} (ho : o ∈ targets out depth n) :
    o.Quiet ∨ ∃ c, n.HasTarget c ∧ c.construct ≠ .identifier ∧ o = out c := by
  induction depth generalizing n with
  | zero =>
    obtain rfl := List.mem_singleton.1 ho
    exact Or.inl (quiet_of_no_parts rfl rfl)
  | succ depth ih =>
    obtain ⟨c, hc, ho⟩ := List.mem_flatMap.1 ho
    split at ho
    · obtain rfl := List.mem_singleton.1 ho
      exact Or.inl (quiet_target c)
    · next hid =>
      split at ho
      · next hnested =>
        refine (ih ho).imp id ?_
        rintro ⟨m, hm, hmid, rfl⟩
        exact ⟨m, .nested hc (by simpa using hnested) hm, hmid, rfl⟩
      · next houter =>
        simp only [Bool.or_eq_true, beq_iff_eq, not_or] at houter
        exact Or.inr ⟨c, .outer hc houter.1 houter.2, hid, List.mem_singleton.1 ho⟩

/-- Every target that is no identifier is an expression. -/
theorem targets_complete {depth : Nat} {n c : ConcreteNode} (h : n.HasTarget c)
    (hc : c.construct ≠ .identifier) (hdeep : tooDeep ∉ targets out depth n) :
    out c ∈ targets out depth n := by
  induction h generalizing depth with
  | @outer n c hmem hrest hparens =>
    cases depth with
    | zero => exact absurd List.mem_cons_self hdeep
    | succ depth =>
      refine List.mem_flatMap.2 ⟨c, hmem, ?_⟩
      simp [hc, hrest, hparens]
  | @nested n d c hmem htype hd ih =>
    cases depth with
    | zero => exact absurd List.mem_cons_self hdeep
    | succ depth =>
      have hid : d.construct ≠ .identifier := by
        rw [ne_eq, construct_eq_identifier]
        rcases htype with htype | htype <;> simp [htype]
      have hall : targets out depth d = (if d.construct = .identifier then [target d]
          else if d.type == "rest_assignment" || d.type == "destructured_left_assignment" then
            targets out depth d
          else [out d]) := by
        rw [if_neg hid, if_pos (by simpa using htype)]
      refine List.mem_flatMap.2 ⟨d, hmem, ?_⟩
      rw [← hall]
      refine ih hc fun hmemDeep => hdeep (List.mem_flatMap.2 ⟨d, hmem, ?_⟩)
      rwa [← hall]

theorem quiet_optional (n? : Option ConcreteNode) :
    (optional out n?).Quiet ∨ ∃ n, n? = some n ∧ optional out n? = out n := by
  cases n? with
  | none => exact Or.inl (quiet_leaf _)
  | some n => exact Or.inr ⟨n, rfl, rfl⟩

/-- **A part of an assignment mentions nothing, or is an expression it
evaluates.** -/
theorem mem_parts_assignment {depth : Nat} {n : ConcreteNode} {o : Outline}
    (ho : o ∈ (assignment out depth n).parts) :
    o.Quiet ∨ ∃ c, n.Evaluates c ∧ o = out c := by
  have hvalue : (optional out (n.child? "right")).Quiet ∨
      ∃ c, n.Evaluates c ∧ optional out (n.child? "right") = out c := by
    refine (quiet_optional _).imp id ?_
    rintro ⟨v, hv, heq⟩
    exact ⟨v, .value hv, heq⟩
  unfold assignment at ho
  cases hleft : n.child? "left" with
  | none =>
    simp only [hleft, plain, tagged, parts, List.mem_cons, List.not_mem_nil, or_false] at ho
    rcases ho with rfl | rfl
    · exact Or.inl (quiet_leaf _)
    · exact hvalue
  | some left =>
    simp only [hleft] at ho
    split at ho
    · simp only [node, parts, List.mem_cons, List.not_mem_nil, or_false] at ho
      rcases ho with rfl | rfl | rfl
      · exact Or.inl (quiet_declare _)
      · exact Or.inl (quiet_name _)
      · exact hvalue
    · simp only [tagged, parts, List.mem_cons, List.not_mem_nil, or_false] at ho
      rcases ho with rfl | rfl | rfl
      · exact Or.inl (quiet_leaf _)
      · exact Or.inl (quiet_name _)
      · exact hvalue
    · next htype =>
      simp only [tagged, parts, List.mem_cons, List.not_mem_nil, or_false] at ho
      rcases ho with rfl | rfl | rfl
      · unfold qualifier
        split
        · exact Or.inl (quiet_of_no_parts rfl rfl)
        · next q hq => exact Or.inr ⟨q, .qualifier hleft htype hq, rfl⟩
      · exact Or.inl (quiet_name _)
      · exact hvalue
    · next htype =>
      simp only [tagged, parts, List.mem_append, List.mem_singleton] at ho
      rcases ho with ho | rfl
      · refine (mem_targets ho).imp id ?_
        rintro ⟨c, hc, hid, rfl⟩
        exact ⟨c, .target hleft htype hc hid, rfl⟩
      · exact hvalue
    · next hid hconstant hqualified hlist =>
      simp only [plain, tagged, parts, List.mem_cons, List.not_mem_nil, or_false] at ho
      rcases ho with rfl | rfl
      · exact Or.inr ⟨left, .other hleft hid hconstant hqualified hlist, rfl⟩
      · exact hvalue

/-- **An expression that an assignment evaluates is a part of it**, unless
the targets are nested too deeply. -/
theorem evaluates_mem_parts {depth : Nat} {n c : ConcreteNode} (h : n.Evaluates c)
    (hdeep : tooDeep ∉ (assignment out depth n).parts) :
    out c ∈ (assignment out depth n).parts := by
  unfold assignment at hdeep ⊢
  cases h with
  | value hv =>
    have hvalue : optional out (n.child? "right") = out c := by rw [hv]; rfl
    rw [hvalue]
    split
    · simp [plain, tagged, parts]
    · dsimp only
      split <;> simp [plain, node, tagged, parts]
  | qualifier hleft htype hq => simp [hleft, htype, tagged, parts, qualifier, hq]
  | target hleft htype hc hid =>
    simp only [hleft, htype, tagged, parts, List.mem_append, not_or] at hdeep ⊢
    exact Or.inl (targets_complete hc hid hdeep.1)
  | other hleft hid hconstant hqualified hlist =>
    rw [hleft]
    dsimp only
    split
    · next htype => exact absurd htype hid
    · next htype => exact absurd htype hconstant
    · next htype => exact absurd htype hqualified
    · next htype => exact absurd htype hlist
    · simp [plain, tagged, parts]

end

/-- An assignment becomes a node that is no mention itself. -/
theorem within_assignment {n : ConcreteNode} (hn : n.construct = .assignment) (depth : Nat) :
    ∃ kind tag, within (depth + 1) n =
        group (.node kind tag n) (assignment (within depth) depth n).parts ∧
      (kind = .other ∨ kind = .localAssign) := by
  have hwithin : within (depth + 1) n = assignment (within depth) depth n := by
    simp [within, ofNode, hn]
  rw [hwithin]
  unfold assignment
  split
  · exact ⟨_, _, rfl, Or.inl rfl⟩
  · dsimp only
    split
    · exact ⟨_, _, rfl, Or.inr rfl⟩
    all_goals exact ⟨_, _, rfl, Or.inl rfl⟩

end Outline

open Outline

namespace ConcreteNode

variable {root : ConcreteNode} {t : SyntaxTree} {w : Walker} {ctx : WalkContext} {here : Address}
  {depth : Nat} {n c : ConcreteNode}

/-- **A constant is reported by the path it spells**, wherever a walk comes
to it. -/
theorem report_constant (h : root.toSyntax = .ok t)
    (hat : root.outline.at? here = some (within depth c)) (hout : root.outline.Outside here)
    (hwhole : ¬ root.outline.TakenApart here) {path : ConstPath} (hc : c.Spells path) :
    ∃ r, (here, r) ∈ root.outline.reports w ctx t ∧ r.path = path ∧ r.line = c.line := by
  obtain ⟨depth, -, rfl, -⟩ := exists_build_within h hat
  obtain ⟨qualifier, x, hwithin⟩ := exists_within_constant hc.isConstant depth
  have hnode : (within (depth + 1) c).isNode := by rw [hwithin]; rfl
  obtain ⟨p, -, hbuild, hreports⟩ := exists_site w ctx h hat hnode hout hwhole
  have hpath := constPath_of_build (proper_within _ c).1 (proper_within _ c).2 hbuild
  rw [(spelled?_within hbuild).2 hc] at hpath
  rw [hwithin] at hbuild
  obtain ⟨hkind, hspan, -⟩ := build_node hbuild
  have hm : p.here.mention? = some .constant := by rw [Step.mention?, hkind]
  exact ⟨_, (hreports _).2 ⟨_, hm, rfl⟩, hpath, first_of_lines hspan⟩

/-- **What an assignment reports is reported by an expression it
evaluates.** -/
theorem exists_evaluates_of_report (h : root.toSyntax = .ok t)
    (hat : root.outline.at? here = some (within (depth + 1) n)) (hn : n.construct = .assignment)
    {a : Address} {r : Relation} (hr : (here ++ a, r) ∈ root.outline.reports w ctx t) :
    ∃ i rest c, a = i :: rest ∧ n.Evaluates c ∧
      root.outline.at? (here ++ [i]) = some (within depth c) := by
  obtain ⟨kind, tag, hwithin, hkind⟩ := within_assignment hn depth
  rw [hwithin] at hat
  cases a with
  | nil =>
    rw [List.append_nil] at hr
    have hmention := isMention_of_mem_reports h hr hat
    obtain rfl | rfl := hkind <;> cases hmention
  | cons i rest =>
    obtain ⟨p, m, hmem, -⟩ := mem_reports.1 hr
    obtain ⟨inner, hinner, -⟩ := (stands_of_mem_zip h hmem).builds
    have hbelow : (group (.node kind tag n) (assignment (within depth) depth n).parts).at?
        (i :: rest) = some inner := by
      rw [at?_append, hat] at hinner
      exact hinner
    obtain ⟨g, qs, part, heq, hi, hpart⟩ := exists_part hbelow
    cases heq
    have hpartAt : root.outline.at? (here ++ [i]) = some part := (at?_concat hat i).trans hi
    rcases mem_parts_assignment (List.mem_of_getElem? hi) with hquiet | ⟨c, hc, rfl⟩
    · have hmention := isMention_of_mem_reports h hr hinner
      rw [hquiet rest inner hpart] at hmention
      cases hmention
    · exact ⟨i, rest, c, rfl, hc, hpartAt⟩

/-- An expression that an assignment evaluates has a place in it. -/
theorem exists_part_of_evaluates (h : root.toSyntax = .ok t)
    (hat : root.outline.at? here = some (within (depth + 1) n)) (hn : n.construct = .assignment)
    (hc : n.Evaluates c) :
    ∃ i, root.outline.at? (here ++ [i]) = some (within depth c) ∧
      ¬ root.outline.TakenApart (here ++ [i]) ∧
      (root.outline.Outside here → root.outline.Outside (here ++ [i])) := by
  obtain ⟨kind, tag, hwithin, hkind⟩ := within_assignment hn depth
  rw [hwithin] at hat
  have hdeep : tooDeep ∉ (assignment (within depth) depth n).parts := by
    intro hmem
    obtain ⟨i, hi⟩ := List.mem_iff_getElem?.1 hmem
    obtain ⟨us, hus⟩ := exists_build_at (build_outline h) ((at?_concat hat i).trans hi)
    cases hus
  obtain ⟨i, hi⟩ := List.mem_iff_getElem?.1 (evaluates_mem_parts hc hdeep)
  refine ⟨i, (at?_concat hat i).trans hi, not_takenApart_concat hat rfl, fun hout => ?_⟩
  refine hout.concat hat ?_
  obtain rfl | rfl := hkind <;> rfl

/-- What is reported of an assignment that stands at an address. -/
structure ReportsAssignment (root : ConcreteNode) (reports : List (Address × Relation))
    (here : Address) (n : ConcreteNode) : Prop where
  /-- Whatever is reported below it stands at or below an expression it
  evaluates. -/
  evaluated : ∀ a r, (here ++ a, r) ∈ reports → ∃ i rest c depth', a = i :: rest ∧
    n.Evaluates c ∧ root.outline.at? (here ++ [i]) = some (within depth' c)
  /-- Every expression it evaluates has a place of its own. -/
  placed : ∀ c, n.Evaluates c → ∃ i depth',
    root.outline.at? (here ++ [i]) = some (within depth' c) ∧
    ¬ root.outline.TakenApart (here ++ [i]) ∧
    (root.outline.Outside here → root.outline.Outside (here ++ [i]))
  /-- A constant among several targets is reported. -/
  target : root.outline.Outside here → ∀ left c path, n.child? "left" = some left →
    left.type = "left_assignment_list" → left.HasTarget c → c.Spells path →
    ∃ i r, (here ++ [i], r) ∈ reports ∧ r.path = path ∧ r.line = c.line

/-- What is reported of the constants and assignments in a tree, if these are
the relations found in it. -/
structure ReportsConstants (root : ConcreteNode) (reports : List (Address × Relation))
    (relations : List Relation) : Prop where
  /-- The reports are the relations, in order. -/
  relations : reports.map Prod.snd = relations
  /-- No place is reported twice. -/
  once : (reports.map Prod.fst).Nodup
  /-- A constant that is an expression is reported at its place. -/
  constant : ∀ here depth c path, root.outline.at? here = some (within depth c) →
    root.outline.Outside here → ¬ root.outline.TakenApart here → c.Spells path →
    ∃ r, (here, r) ∈ reports ∧ r.path = path ∧ r.line = c.line
  /-- An assignment reports what it evaluates. -/
  assignment : ∀ here depth n, root.outline.at? here = some (within depth n) →
    n.construct = .assignment → root.ReportsAssignment reports here n

/-- **An assignment reports just what it evaluates**, and among what it
evaluates are constants that are assigned. Every relation of a walk has a
place, and no two have the same. A constant that a walk comes to is reported
by the path it spells. What is reported of an assignment comes from an
expression that it evaluates, so not from a constant that is the whole left
side; and every expression that it evaluates has a place there that a walk
comes to, so that the constants in it are reported. But this holds of a
constant among several targets too, at any depth. -/
theorem assigned_constants_reported (w : Walker) (ctx : WalkContext) {root : ConcreteNode}
    {t : SyntaxTree} (h : root.toSyntax = .ok t) :
    root.ReportsConstants (root.outline.reports w ctx t) (w.walk t ctx).relations := by
  refine ⟨map_snd_reports w ctx h, nodup_reports w ctx h,
    fun here depth c path hat hout hwhole hc => report_constant h hat hout hwhole hc,
    fun here depth n hat hn => ?_⟩
  obtain ⟨depth, -, rfl, -⟩ := exists_build_within h hat
  refine ⟨fun a r hr => ?_, fun c hc => ?_, fun hout left c path hleft htype htarget hc => ?_⟩
  · obtain ⟨i, rest, c, rfl, hc, hpart⟩ := exists_evaluates_of_report h hat hn hr
    exact ⟨i, rest, c, depth, rfl, hc, hpart⟩
  · obtain ⟨i, hpart⟩ := exists_part_of_evaluates h hat hn hc
    exact ⟨i, depth, hpart⟩
  · -- a constant is no identifier, so it is taken for an expression
    have hid : c.construct ≠ .identifier := by
      obtain hbare | ⟨hqualified, -⟩ := hc.isConstant
      · simp [hbare]
      · simp [hqualified]
    obtain ⟨i, hpart, hwhole, hinside⟩ :=
      exists_part_of_evaluates h hat hn (.target hleft htype htarget hid)
    obtain ⟨r, hr, hpath⟩ := report_constant h hpart (hinside hout) hwhole hc
    exact ⟨i, r, hr, hpath⟩

/-! ## Two assignments -/

/-- An assignment of `E` to a left side. -/
def assigned (left : ConcreteNode) : ConcreteNode where
  type := "assignment"
  children := [left, { type := "constant", field := some "right", bytes := [69] }]

/-- A program that is just the assignment. -/
def assigning (left : ConcreteNode) : ConcreteNode where
  type := "program"
  children := [assigned left]

/-- The constant `A`, in some field. -/
def constantA (field : Option String) : ConcreteNode where
  type := "constant"
  field := field
  bytes := [65]

/-- The left side of `A::B = E`. -/
def qualifiedTarget : ConcreteNode where
  type := "scope_resolution"
  field := some "left"
  children := [constantA (some "scope"),
    { type := "constant", field := some "name", bytes := [66] }]

/-- The left side of `x, (*A) = E`. -/
def nestedTarget : ConcreteNode where
  type := "left_assignment_list"
  field := some "left"
  children := [{ type := "identifier", bytes := [120] },
    { type := "destructured_left_assignment", children := [
      { type := "rest_assignment", children := [constantA none] }] }]

/-- In `A::B = E` only the qualifier and the value are reported. -/
theorem qualified_target_evaluated :
    ∃ t, (assigning qualifiedTarget).toSyntax = .ok t ∧
      (∀ a r, ([0] ++ a, r) ∈ (assigning qualifiedTarget).outline.reports ⟨"a.rb", .none⟩ {} t →
        ∃ i rest c depth', a = i :: rest ∧ (assigned qualifiedTarget).Evaluates c ∧
          (assigning qualifiedTarget).outline.at? ([0] ++ [i]) = some (within depth' c)) ∧
      ∃ r, ([0, 0], r) ∈ (assigning qualifiedTarget).outline.reports ⟨"a.rb", .none⟩ {} t ∧
        r.path = ["A"] ∧ r.line = 1 := by
  obtain ⟨t, ht⟩ : ∃ t, (assigning qualifiedTarget).toSyntax = .ok t := ⟨_, rfl⟩
  have hreports := assigned_constants_reported ⟨"a.rb", .none⟩ {} ht
  have hspells : (constantA (some "scope")).Spells ["A"] := by
    have htext : (constantA (some "scope")).text = "A" := by decide +kernel
    exact htext ▸ .bare rfl
  have hout : (assigning qualifiedTarget).outline.Outside ([0] ++ [0]) :=
    ((outside_nil (assigning qualifiedTarget).outline).concat rfl rfl).concat rfl rfl
  exact ⟨t, ht, (hreports.assignment [0] 999 (assigned qualifiedTarget) rfl rfl).evaluated,
    hreports.constant [0, 0] 998 (constantA (some "scope")) ["A"] rfl hout
      (not_takenApart_concat (a := [0]) rfl rfl) hspells⟩

/-- In `x, (*A) = E` the target `A` is reported, though it is not read. -/
theorem nested_target_reported :
    (nestedTarget.HasTarget (constantA none) ∧
      (assigned nestedTarget).child? "left" = some nestedTarget) ∧
      (assigning nestedTarget).toSyntax.map
        (fun t => ((Walker.mk "a.rb" .none).walk t {}).relations.map (·.path)) =
          .ok [["A"], ["E"]] := by
  refine ⟨⟨?_, rfl⟩, by decide +kernel⟩
  refine .nested (List.mem_cons_of_mem _ List.mem_cons_self) (Or.inr rfl) ?_
  exact .nested List.mem_cons_self (Or.inl rfl)
    (.outer List.mem_cons_self (by decide) (by decide))

end ConcreteNode

end ConstGraph
