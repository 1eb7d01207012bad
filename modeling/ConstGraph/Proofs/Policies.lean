import ConstGraph.Proofs.DefinedCycles

/-!
# What a policy finds circular

A policy is laid down if it is built from the three rules there are: a way
back, enclosure, and several policies taken together, to any depth
(`LaidDown`). Every policy with a name is (`laidDown_of_ofName`).

What such a policy finds circular once it has seen a graph is said by
`Finds`, of the edges of the graph and of nothing else: neither the order
in which they were added nor what the policy was shown before matters
(`isCircular_prepare`). So the judgement of a whole project never fails
(`ofRelations_laidDown`).
-/

namespace ConstGraph

theorem ConstPath.encloses_iff {outer p : ConstPath} :
    outer.encloses p ↔ outer ≠ [] ∧ outer <+: p := by
  simp [encloses]

namespace CyclePolicy

/-- The policy consists of rules. -/
inductive LaidDown : CyclePolicy → Prop where
  /-- A way back is asked for, whatever graph was seen before. -/
  | scc (seen : List (List ConstPath)) : LaidDown (.scc seen)
  /-- Enclosure is asked for. -/
  | ancestry : LaidDown .ancestry
  /-- Several policies are taken together. -/
  | combined {ps : List CyclePolicy} : (∀ p ∈ ps, LaidDown p) → LaidDown (.combined ps)

/-- By the edges of a graph, the policy finds a reference circular. -/
inductive Finds (E : ConstPath → ConstPath → Prop) (c t : ConstPath) : CyclePolicy → Prop where
  /-- The ends lead to each other, and the caller to another path and
  back. -/
  | scc {seen : List (List ConstPath)} {other : ConstPath} :
      Relation.TransGen E c t → Relation.TransGen E t c →
      other ≠ c → Relation.TransGen E c other → Relation.TransGen E other c →
      Finds E c t (.scc seen)
  /-- The target encloses the caller. -/
  | ancestry : t ≠ [] → t <+: c → Finds E c t .ancestry
  /-- Some member finds it circular. -/
  | combined {p : CyclePolicy} {ps : List CyclePolicy} :
      p ∈ ps → Finds E c t p → Finds E c t (.combined ps)

variable {g : ReferenceGraph} {E : ConstPath → ConstPath → Prop} {c t : ConstPath}

/-- Enclosure and a way back are rules. -/
theorem laidDown_both : ∀ p ∈ [CyclePolicy.ancestry, strong], p.LaidDown := by
  intro p hp
  rcases List.mem_pair.mp hp with rfl | rfl
  · exact .ancestry
  · exact .scc []

theorem laidDown_of_ofName {name : String} {policy : CyclePolicy}
    (h : ofName name = .ok policy) : policy.LaidDown := by
  have hmem : policy ∈ (named : List CyclePolicy) := by
    unfold ofName at h
    split at h
    · next hfind =>
      cases h
      exact List.mem_of_find?_eq_some hfind
    · cases h
  simp only [named, List.mem_cons, List.not_mem_nil, or_false] at hmem
  rcases hmem with rfl | rfl | rfl
  · exact .ancestry
  · exact .combined laidDown_both
  · exact .scc []

/-! ## One rule after the other -/

theorem finds_scc_iff {seen : List (List ConstPath)} :
    Finds g.Joins c t (.scc seen) ↔ g.Mutual c t ∧ ∃ r, r ≠ c ∧ g.Mutual c r := by
  constructor
  · rintro (⟨hto, hback, hne, hout, hin⟩)
    exact ⟨⟨hto, hback⟩, _, hne, hout, hin⟩
  · rintro ⟨⟨hto, hback⟩, r, hne, hout, hin⟩
    exact .scc hto hback hne hout hin

theorem finds_ancestry_iff : Finds E c t .ancestry ↔ t.encloses c := by
  rw [ConstPath.encloses_iff]
  constructor
  · rintro (_ | ⟨hne, hprefix⟩)
    exact ⟨hne, hprefix⟩
  · rintro ⟨hne, hprefix⟩
    exact .ancestry hne hprefix

theorem finds_combined_iff {ps : List CyclePolicy} :
    Finds E c t (.combined ps) ↔ ∃ p ∈ ps, Finds E c t p := by
  constructor
  · rintro (_ | _ | ⟨hp, hfinds⟩)
    exact ⟨_, hp, hfinds⟩
  · rintro ⟨p, hp, hfinds⟩
    exact .combined hp hfinds

/-- A policy gives the answers of `Finds` once it has seen a graph. -/
def Answers (g : ReferenceGraph) (p : CyclePolicy) : Prop :=
  ∀ c t, ∃ b, (p.prepare g).isCircular c t = .ok b ∧ (b = true ↔ Finds g.Joins c t p)

/-- Members that answer are asked in turn until one says yes. -/
theorem isCircularAny_prepareAll {ps : List CyclePolicy} (hps : ∀ p ∈ ps, p.Answers g)
    (c t : ConstPath) :
    ∃ b, isCircularAny c t (prepareAll g ps) = .ok b ∧
      (b = true ↔ ∃ p ∈ ps, Finds g.Joins c t p) := by
  induction ps with
  | nil => exact ⟨false, rfl, by simp⟩
  | cons p ps ih =>
    obtain ⟨b, hb, hbiff⟩ := hps p List.mem_cons_self c t
    obtain ⟨b', hb', hbiff'⟩ := ih fun q hq => hps q (List.mem_cons_of_mem _ hq)
    cases b with
    | true =>
      refine ⟨true, ?_, ?_⟩
      · rw [prepareAll, isCircularAny, hb]
      · simp [← hbiff]
    | false =>
      refine ⟨b', ?_, ?_⟩
      · rw [prepareAll, isCircularAny, hb]
        exact hb'
      · simp [← hbiff, hbiff']

/-- **What a policy finds circular depends on the edges of the last graph
it was shown**, and on nothing else. -/
theorem isCircular_prepare {p : CyclePolicy} (hp : p.LaidDown) (hg : g.IsLaid) :
    p.Answers g := by
  induction hp with
  | scc seen =>
    intro c t
    refine ⟨_, rfl, ?_⟩
    rw [finds_scc_iff, ← ReferenceGraph.exists_mem_components_iff hg]
    simp
  | ancestry => exact fun c t => ⟨_, rfl, finds_ancestry_iff.symm⟩
  | combined _ ih =>
    intro c t
    obtain ⟨b, hb, hiff⟩ := isCircularAny_prepareAll ih c t
    exact ⟨b, hb, hiff.trans finds_combined_iff.symm⟩

end CyclePolicy

namespace CircularFlags

/-- One judgement by a policy that answers. -/
theorem judge_ok {policy : CyclePolicy} (h : ∀ c t, ∃ b, policy.isCircular c t = .ok b)
    (store : DefinitionStore) (f : CircularFlags) (r : Relation) :
    ∃ f', judge policy store f r = .ok f' := by
  unfold judge
  cases r.arc? store with
  | none => exact ⟨f, rfl⟩
  | some arc =>
    obtain ⟨b, hb⟩ := h arc.1 arc.2
    simp only [hb]
    exact ⟨_, rfl⟩

/-- A run of judgements by a policy that answers. -/
theorem judgeAll_ok {policy : CyclePolicy} (h : ∀ c t, ∃ b, policy.isCircular c t = .ok b)
    (store : DefinitionStore) (f : CircularFlags) (rs : List Relation) :
    ∃ f', judgeAll policy store f rs = .ok f' := by
  induction rs generalizing f with
  | nil => exact ⟨f, rfl⟩
  | cons r rs ih =>
    obtain ⟨f₁, hjudge⟩ := judge_ok h store f r
    obtain ⟨f₂, hall⟩ := ih f₁
    refine ⟨f₂, ?_⟩
    rw [judgeAll, hjudge]
    exact hall

/-- A policy marks the relations of the list that it accepts, once it has
seen their graph. -/
theorem hasRelation_iff {policy : CyclePolicy} {rs : List Relation} {store : DefinitionStore}
    {f : CircularFlags} (h : ofRelations policy rs store = .ok f) (r : Relation) :
    f.hasRelation r ↔ r ∈ rs ∧ r.caller ≠ [] ∧ r.resolve store ≠ [] ∧
      (policy.prepare (.ofRelations rs store)).isCircular r.caller (r.resolve store) =
        .ok true := by
  have hjudged : Judged (policy.prepare (.ofRelations rs store)) store r ↔
      r.caller ≠ [] ∧ r.resolve store ≠ [] ∧
        (policy.prepare (.ofRelations rs store)).isCircular r.caller (r.resolve store) =
          .ok true := by
    constructor
    · rintro ⟨⟨c, t⟩, harc, hcircular⟩
      obtain ⟨rfl, rfl, hc, ht⟩ := Relation.arc?_eq_some.1 harc
      exact ⟨hc, ht, hcircular⟩
    · rintro ⟨hc, ht, hcircular⟩
      exact ⟨_, Relation.arc?_eq_some.2 ⟨rfl, rfl, hc, ht⟩, hcircular⟩
  rw [hasRelation, List.contains_iff_mem, (mem_judgeAll h).1, hjudged]
  simp [empty]

/-- **A policy that is laid down judges every project**, and marks the
relations it finds circular by the references of the project. -/
theorem ofRelations_laidDown {policy : CyclePolicy} (hp : policy.LaidDown) (rs : List Relation)
    (store : DefinitionStore) :
    ∃ f, ofRelations policy rs store = .ok f ∧
      ∀ r, f.hasRelation r ↔ r ∈ rs ∧ r.caller ≠ [] ∧ r.resolve store ≠ [] ∧
        policy.Finds (Refers rs store) r.caller (r.resolve store) := by
  have hlaid : (ReferenceGraph.ofRelations rs store).IsLaid := ReferenceGraph.ofArcs_laid _
  have hanswers := CyclePolicy.isCircular_prepare hp hlaid
  obtain ⟨f, hf⟩ := judgeAll_ok (fun c t => (hanswers c t).imp fun _ => And.left) store empty rs
  refine ⟨f, hf, fun r => ?_⟩
  obtain ⟨b, hb, hiff⟩ := hanswers r.caller (r.resolve store)
  rw [joins_ofRelations] at hiff
  rw [hasRelation_iff hf, hb, ← hiff]
  simp

end CircularFlags

end ConstGraph
