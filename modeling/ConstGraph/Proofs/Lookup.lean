import ConstGraph.Store
import Mathlib.Tactic.Common

/-!
# Looking up a path in the store

A store is searched by halving. Its definitions are in order of their
paths, so one place parts them at a path `p`: those before it lie below
`p` and those from it on do not (`PartsAt`). Halving finds that place
(`lowerBound_parts`), and a definition of `p` stands there if there is one
at all, which is what `contains_iff` says without mention of any order.
-/

namespace ConstGraph

namespace DefinitionStore

variable {σ ν : Type} [Segment σ]
variable {ds : Array (Definition σ ν)} {p : ConstPath σ}

/-- The place `k` parts definitions at a path: those before it lie below
the path, those from it on do not. -/
def PartsAt (ds : Array (Definition σ ν)) (p : ConstPath σ) (k : Nat) : Prop :=
  ∀ i d, ds[i]? = some d → ((compare d.path p).isLT ↔ i < k)

/-- The paths of a store do not decrease. -/
theorem path_isLE (s : DefinitionStore σ ν) {i j : Nat} {a b : Definition σ ν}
    (hij : i ≤ j) (ha : s.entries[i]? = some a) (hb : s.entries[j]? = some b) :
    (compare a.path b.path).isLE := by
  obtain ⟨hi, rfl⟩ := Array.getElem?_eq_some_iff.1 ha
  obtain ⟨hj, rfl⟩ := Array.getElem?_eq_some_iff.1 hb
  rcases Nat.eq_or_lt_of_le hij with rfl | hlt
  · simp
  · have hprec := List.pairwise_iff_getElem.1 s.sorted i j (by simpa using hi)
      (by simpa using hj) hlt
    simp only [Array.getElem_toList] at hprec
    rcases (Definition.precedes_iff _ _).1 hprec with h | ⟨h, -⟩ <;> simp [h]

/-- What does not lie above a path below `p` lies below `p` itself. -/
theorem isLT_of_isLE {a b : ConstPath σ} (hab : (compare a b).isLE)
    (hbp : (compare b p).isLT) : (compare a p).isLT := by
  rw [Ordering.isLT_iff_eq_lt] at hbp ⊢
  exact Std.TransCmp.lt_of_isLE_of_lt hab hbp

/-- **Halving keeps the parting place between its bounds**, so it ends up
at that place: a definition below `p` in the middle takes all before it
along, and one that is not takes all after it. -/
theorem search_parts (s : DefinitionStore σ ν) (p : ConstPath σ) (lo hi : Nat)
    (hle : lo ≤ hi) (hsize : hi ≤ s.entries.size)
    (hlo : ∀ i d, s.entries[i]? = some d → i < lo → (compare d.path p).isLT)
    (hhi : ∀ i d, s.entries[i]? = some d → hi ≤ i → ¬ (compare d.path p).isLT) :
    PartsAt s.entries p (search s.entries p lo hi) := by
  fun_induction search s.entries p lo hi with
  | case1 lo hi hlt mid hnone =>
    have : mid < s.entries.size := by omega
    simp [this] at hnone
  | case2 lo hi hlt mid d hmid hbelow ih =>
    refine ih (by omega) hsize ?_ hhi
    intro i e he hi'
    exact isLT_of_isLE (s.path_isLE (by omega) he hmid) hbelow
  | case3 lo hi hlt mid d hmid hnot ih =>
    refine ih (by omega) (by omega) hlo ?_
    intro i e he hi' hbelow
    exact hnot (isLT_of_isLE (s.path_isLE hi' hmid he) hbelow)
  | case4 lo hi hge =>
    intro i d hd
    constructor
    · intro hbelow
      by_contra hi'
      exact hhi i d hd (by omega) hbelow
    · exact hlo i d hd

/-- The place that is found parts the definitions of the store. -/
theorem lowerBound_parts (s : DefinitionStore σ ν) (p : ConstPath σ) :
    PartsAt s.entries p (s.lowerBound p) := by
  refine s.search_parts p 0 s.size (Nat.zero_le _) (Nat.le_refl _) ?_ ?_
  · intro i d _ hi
    omega
  · intro i d hd hi
    have := (Array.getElem?_eq_some_iff.1 hd).1
    simp only [size] at hi
    omega

/-- **A path is found exactly if it is defined.** A definition of `p` is
not below `p`, so the parting place is at or before it; what stands there
is not above it and not below `p`, and so is a definition of `p` too. -/
theorem contains_iff (s : DefinitionStore σ ν) (p : ConstPath σ) :
    s.contains p ↔ ∃ d ∈ s.toList, d.path == p := by
  have hparts := s.lowerBound_parts p
  constructor
  · intro h
    obtain ⟨d, hd⟩ := Option.isSome_iff_exists.1 h
    unfold find? at hd
    split at hd
    · cases hd
    · next e he =>
      split at hd
      · next heq => exact ⟨e, by simpa [toList] using Array.mem_of_getElem? he, heq⟩
      · cases hd
  · rintro ⟨d, hmem, heq⟩
    obtain ⟨i, hi, rfl⟩ := List.getElem_of_mem hmem
    simp only [toList, Array.length_toList] at hi
    have hd : s.entries[i]? = some s.toList[i] := by simp [toList, hi]
    have hcmp : compare s.toList[i].path p = .eq := Std.compare_eq_iff_beq.2 heq
    have hbound : s.lowerBound p ≤ i := by
      by_contra hlt
      have := (hparts i _ hd).2 (by omega)
      simp [hcmp] at this
    -- the definition at the parting place lies between `p` and itself
    obtain ⟨e, he⟩ : ∃ e, s.entries[s.lowerBound p]? = some e :=
      ⟨s.entries[s.lowerBound p], by simp [show s.lowerBound p < s.entries.size by omega]⟩
    have hle : (compare e.path p).isLE := by
      have := s.path_isLE hbound he hd
      rwa [Std.TransCmp.congr_right hcmp] at this
    have hnot : ¬ (compare e.path p).isLT := fun h =>
      Nat.lt_irrefl _ ((hparts _ e he).1 h)
    have heq' : e.path == p := by
      rw [← Std.compare_eq_iff_beq]
      cases h : compare e.path p <;> simp_all
    simp [contains, find?, he, heq']

/-- The definitions of a store are those it was built from. -/
@[simp] theorem mem_toList_ofList {ds : List (Definition σ ν)} {d : Definition σ ν} :
    d ∈ (ofList ds).toList ↔ d ∈ ds := by
  simp [toList, ofList]

/-- A store built from some definitions finds the paths these define. -/
theorem contains_ofList (ds : List (Definition σ ν)) (p : ConstPath σ) :
    (ofList ds).contains p ↔ ∃ d ∈ ds, d.path == p := by
  simp [contains_iff]

/-! ## All definitions of a path -/

/-- Where no member passes a test after one that fails it, the members
that pass are the first ones. -/
theorem takeWhile_eq_filter {α : Type} {test : α → Bool} {xs : List α}
    (h : xs.Pairwise fun a b => test b → test a) : xs.takeWhile test = xs.filter test := by
  induction xs with
  | nil => rfl
  | cons x xs ih =>
    obtain ⟨hx, hxs⟩ := List.pairwise_cons.1 h
    cases htest : test x with
    | true => simp [htest, ih hxs]
    | false =>
      have hnone : xs.filter test = [] := List.filter_eq_nil_iff.2 fun y hy hy' => by
        simp [hx y hy hy'] at htest
      simp [htest, hnone]

section

variable {s : DefinitionStore σ ν} {k : Nat} {d : Definition σ ν}

/-- Before the parting place everything lies below the path. -/
theorem PartsAt.isLT_of_mem_take (h : PartsAt s.entries p k) (hd : d ∈ s.toList.take k) :
    (compare d.path p).isLT := by
  obtain ⟨i, hi, rfl⟩ := List.mem_take_iff_getElem.1 hd
  have hsize : i < s.entries.size := by
    have : s.toList.length = s.entries.size := by simp [toList]
    omega
  exact (h i _ (by simp [toList, hsize])).2 (by omega)

/-- From the parting place on nothing does. -/
theorem PartsAt.not_isLT_of_mem_drop (h : PartsAt s.entries p k) (hd : d ∈ s.toList.drop k) :
    ¬ (compare d.path p).isLT := by
  obtain ⟨i, hi, rfl⟩ := List.mem_drop_iff_getElem.1 hd
  have hsize : k + i < s.entries.size := by
    have : s.toList.length = s.entries.size := by simp [toList]
    omega
  intro hbelow
  have := (h (k + i) _ (by simp [toList, hsize])).1 hbelow
  omega

end

/-- **The definitions of a path are found all together.** Before the
parting place there are none, and from it on what does not lie above one
of them is one too. -/
theorem findAll_eq_filter (s : DefinitionStore σ ν) (p : ConstPath σ) :
    s.findAll p = s.toList.filter (·.path == p) := by
  have hparts := s.lowerBound_parts p
  have hbefore : (s.toList.take (s.lowerBound p)).filter (·.path == p) = [] := by
    refine List.filter_eq_nil_iff.2 fun d hd heq => ?_
    have := hparts.isLT_of_mem_take hd
    simp [Std.compare_eq_iff_beq.2 heq] at this
  have hfrom : (s.toList.drop (s.lowerBound p)).Pairwise
      fun a b => (b.path == p) → (a.path == p) := by
    refine (s.sorted.sublist (List.drop_sublist _ _)).imp_of_mem ?_
    intro a b ha _ hprec heq
    have hcmp : compare b.path p = .eq := Std.compare_eq_iff_beq.2 heq
    have hle : (compare a.path p).isLE := by
      rw [← Std.TransCmp.congr_right hcmp]
      rcases (Definition.precedes_iff _ _).1 hprec with h | ⟨h, -⟩ <;> simp [h]
    have hnot := hparts.not_isLT_of_mem_drop ha
    rw [← Std.compare_eq_iff_beq]
    cases h : compare a.path p <;> simp_all
  rw [findAll, takeWhile_eq_filter hfrom]
  conv_rhs => rw [← List.take_append_drop (s.lowerBound p) s.toList, List.filter_append, hbefore]
  rfl

theorem mem_findAll {s : DefinitionStore σ ν} {d : Definition σ ν} :
    d ∈ s.findAll p ↔ d ∈ s.toList ∧ d.path == p := by
  rw [findAll_eq_filter, List.mem_filter]

end DefinitionStore

end ConstGraph
