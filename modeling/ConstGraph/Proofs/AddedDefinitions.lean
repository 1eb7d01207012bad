import ConstGraph.Proofs.MergedStores

/-!
# What a definition more changes

The candidates of a relation are its path put into one scope after the
other, from the innermost outwards, so each is shorter than the one before
it (`pairwise_length_candidates`) and none occurs twice. What a relation
resolves to depends on nothing but which of them are defined, and only on
those up to the first.

So a definition more is noticed by a relation only if it is of a candidate
before which none is defined; and since what was found before then stands
further out, a relation never comes to a shorter path
(`resolve_added_definition`).
-/

namespace ConstGraph

namespace Relation

variable {r : Relation} {s t : DefinitionStore} {p : ConstPath} {before after : List ConstPath}

/-! ## The candidates -/

theorem candidates_of_not_isRelative (h : ¬ r.IsRelative) : r.candidates = [r.globalPath] := by
  have habsolute : r.isAbsolute := (r.isAbsolute_iff).2 h
  rw [candidates, globalPath, if_pos habsolute, if_pos habsolute]

/-- **Each candidate is shorter than the one before it.** -/
theorem pairwise_length_candidates (r : Relation) :
    r.candidates.Pairwise fun p q => q.length < p.length := by
  by_cases h : r.IsRelative
  · rw [candidates_of_isRelative h, List.pairwise_map, List.pairwise_reverse]
    refine List.pairwise_lt_range.imp_of_mem ?_
    intro j k hj hk hjk
    rw [List.mem_range] at hj hk
    rw [length_inScope (by omega), length_inScope (by omega)]
    omega
  · rw [candidates_of_not_isRelative h]
    exact List.pairwise_singleton _ _

theorem nodup_candidates (r : Relation) : r.candidates.Nodup := by
  refine r.pairwise_length_candidates.imp ?_
  rintro p q hlt rfl
  exact Nat.lt_irrefl _ hlt

/-- What is left where nothing is defined is no longer than any
candidate. -/
theorem length_globalPath_le (hp : p ∈ r.candidates) : r.globalPath.length ≤ p.length := by
  by_cases h : r.IsRelative
  · have hnot : ¬ r.isAbsolute := mt (r.isAbsolute_iff).1 (not_not.2 h)
    rw [candidates_of_isRelative h, List.mem_map] at hp
    obtain ⟨k, hk, rfl⟩ := hp
    rw [List.mem_reverse, List.mem_range] at hk
    rw [globalPath, if_neg hnot, length_inScope (by omega)]
    omega
  · rw [candidates_of_not_isRelative h, List.mem_singleton] at hp
    exact hp ▸ Nat.le_refl _

/-! ## Two stores -/

/-- The first candidate that is defined is what a relation resolves to. -/
theorem resolve_of_first (hsplit : r.candidates = before ++ p :: after)
    (hbefore : ∀ q ∈ before, ¬ s.contains q) (hp : s.contains p) : r.resolve s = p := by
  have hnone : before.find? s.contains = none := List.find?_eq_none.mpr hbefore
  rw [resolve, hsplit, List.find?_append, hnone, Option.none_or, List.find?_cons_of_pos hp]
  rfl

/-- Stores that hold the same of some paths find the same first. -/
theorem find?_contains_congr {ps : List ConstPath} (h : ∀ p ∈ ps, s.contains p = t.contains p) :
    ps.find? s.contains = ps.find? t.contains := by
  rw [← List.head?_filter, ← List.head?_filter, List.filter_congr h]

/-- Stores that hold the same candidates resolve a relation alike. -/
theorem resolve_eq_of_contains (h : ∀ p ∈ r.candidates, s.contains p = t.contains p) :
    r.resolve s = r.resolve t := by
  rw [resolve, resolve, find?_contains_congr h]

/-- It is enough that they hold the same candidates up to one that is
defined. -/
theorem resolve_eq_of_earlier (hsplit : r.candidates = before ++ after)
    (hsame : ∀ p ∈ before, s.contains p = t.contains p) (hdefined : ∃ p ∈ before, s.contains p) :
    r.resolve s = r.resolve t := by
  obtain ⟨p, hp⟩ := Option.isSome_iff_exists.mp (List.find?_isSome.mpr hdefined)
  rw [resolve, resolve, hsplit, List.find?_append, List.find?_append, ← find?_contains_congr hsame,
    hp, Option.some_or, Option.some_or]

/-- Among paths that grow shorter, a test that more of them pass finds none
that is shorter. -/
theorem length_find?_le {ps : List ConstPath} {last : ConstPath} {test test' : ConstPath → Bool}
    (hps : ps.Pairwise fun p q => q.length < p.length) (hlast : ∀ p ∈ ps, last.length ≤ p.length)
    (h : ∀ p, test p → test' p) :
    ((ps.find? test).getD last).length ≤ ((ps.find? test').getD last).length := by
  induction ps with
  | nil => exact Nat.le_refl _
  | cons p ps ih =>
    obtain ⟨hp, hps⟩ := List.pairwise_cons.mp hps
    by_cases htest' : test' p
    · rw [List.find?_cons_of_pos htest', Option.getD_some]
      cases hfind : (p :: ps).find? test with
      | none => exact hlast p List.mem_cons_self
      | some q =>
        rcases List.mem_cons.mp (List.mem_of_find?_eq_some hfind) with rfl | hq
        · exact Nat.le_refl _
        · exact Nat.le_of_lt (hp q hq)
    · have htest : ¬ test p := mt (h p) htest'
      rw [List.find?_cons_of_neg htest', List.find?_cons_of_neg htest]
      exact ih hps fun q hq => hlast q (List.mem_cons_of_mem p hq)

/-- **Where more is defined, a relation resolves to no shorter path.** -/
theorem length_resolve_le (h : ∀ p, s.contains p → t.contains p) :
    (r.resolve s).length ≤ (r.resolve t).length :=
  length_find?_le r.pairwise_length_candidates (fun _ => length_globalPath_le) h

/-! ## One definition more -/

variable {ds : List Definition} {d : Definition}

/-- One definition more defines its own path and no other. -/
theorem contains_merge_singleton :
    ((DefinitionStore.ofList ds).merge [d]).contains p ↔
      (DefinitionStore.ofList ds).contains p ∨ p = d.path := by
  rw [DefinitionStore.merge_ofList, contains_ofList_iff_defines, contains_ofList_iff_defines]
  simp only [Defines, List.mem_append, List.mem_singleton, or_and_right, exists_or, exists_eq_left,
    eq_comm (a := p)]

theorem contains_merge_of_ne (h : p ≠ d.path) :
    ((DefinitionStore.ofList ds).merge [d]).contains p = (DefinitionStore.ofList ds).contains p := by
  rw [Bool.eq_iff_iff, contains_merge_singleton, or_iff_left h]

/-- **A definition more changes what a relation resolves to only where it
must.** Where its path is no candidate nothing changes. Where it is one,
the relation resolves to it if no candidate before it was defined, and to
what it did if one was. So a relation never comes to a shorter path; and
since no candidate occurs twice, there is one place to look at. -/
theorem resolve_added_definition (r : Relation) (ds : List Definition) (d : Definition) :
    (d.path ∉ r.candidates →
        r.resolve ((DefinitionStore.ofList ds).merge [d]) = r.resolve (.ofList ds)) ∧
      (∀ before after, r.candidates = before ++ d.path :: after →
        ((∀ p ∈ before, ¬ Defines ds p) →
            r.resolve ((DefinitionStore.ofList ds).merge [d]) = d.path) ∧
          ((∃ p ∈ before, Defines ds p) →
            r.resolve ((DefinitionStore.ofList ds).merge [d]) = r.resolve (.ofList ds))) ∧
      (r.resolve (.ofList ds)).length ≤
        (r.resolve ((DefinitionStore.ofList ds).merge [d])).length ∧
      r.candidates.Nodup := by
  refine ⟨?_, ?_, ?_, r.nodup_candidates⟩
  · intro hd
    refine resolve_eq_of_contains fun p hp => contains_merge_of_ne ?_
    rintro rfl
    exact hd hp
  · intro before after hsplit
    -- no candidate occurs twice, so the new one is not among those before it
    have hne : ∀ p ∈ before, p ≠ d.path := by
      rintro p hp rfl
      have hnodup := r.nodup_candidates
      rw [hsplit] at hnodup
      exact List.disjoint_of_nodup_append hnodup hp List.mem_cons_self
    constructor
    · intro hnone
      refine resolve_of_first hsplit ?_ (contains_merge_singleton.mpr (Or.inr rfl))
      intro p hp
      rw [contains_merge_of_ne (hne p hp), contains_ofList_iff_defines]
      exact hnone p hp
    · rintro ⟨p, hp, hdefined⟩
      refine (resolve_eq_of_earlier hsplit ?_ ⟨p, hp, contains_ofList_iff_defines.mpr hdefined⟩).symm
      intro q hq
      exact (contains_merge_of_ne (hne q hq)).symm
  · exact length_resolve_le fun p hp => contains_merge_singleton.mpr (Or.inl hp)

/-- The mention of `D` in `A::B::C`. -/
def mentionOfD : Relation := ⟨["D"], ["A", "B", "C"], "", "", "a.rb", 4⟩

/-- With `A::D` defined the mention is of that, and with `A::B::D` defined
too, of this. -/
theorem inner_definition_found :
    mentionOfD.resolve (.ofList [⟨["A", "D"], .ofClass, "b.rb", 1, 1⟩]) = ["A", "D"] ∧
      mentionOfD.resolve ((DefinitionStore.ofList [⟨["A", "D"], .ofClass, "b.rb", 1, 1⟩]).merge
        [⟨["A", "B", "D"], .ofClass, "c.rb", 1, 1⟩]) = ["A", "B", "D"] := by
  constructor
  · have hsplit : mentionOfD.candidates =
        [["A", "B", "C", "D"], ["A", "B", "D"]] ++ ["A", "D"] :: [["D"]] := rfl
    refine resolve_of_first hsplit ?_
      (contains_ofList_iff_defines.mpr ⟨_, List.mem_singleton_self _, rfl⟩)
    intro p hp
    rw [contains_ofList_iff_defines]
    simp only [List.mem_cons, List.not_mem_nil, or_false] at hp
    rcases hp with rfl | rfl <;> simp [Defines]
  · have hadded := (resolve_added_definition mentionOfD [⟨["A", "D"], .ofClass, "b.rb", 1, 1⟩]
      ⟨["A", "B", "D"], .ofClass, "c.rb", 1, 1⟩).2.1
    refine (hadded [["A", "B", "C", "D"]] [["A", "D"], ["D"]] rfl).1 ?_
    simp [Defines]

end Relation

end ConstGraph
