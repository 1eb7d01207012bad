import ConstGraph.Proofs.Lookup
import ConstGraph.Resolution

/-!
# What a relation names

`Names` says what a relation refers to without saying how it is looked up:
a rooted path is itself, a path outside every definition is itself, and
any other path belongs to the innermost scope around it in which it is
defined, or to none. `resolve_eq_iff` is the agreement of the two: the
search through the candidates, each of them looked up by halving, comes to
the one path `Names` allows.
-/

namespace ConstGraph

namespace Relation

/-- Some definition is of exactly this path. -/
def Defines (ds : List Definition) (p : ConstPath) : Prop := ∃ d ∈ ds, d.path = p

/-- The path of a relation put into the scope of the first `k` segments
around it. -/
def inScope (r : Relation) (k : Nat) : ConstPath := r.caller.take k ++ r.path

theorem length_inScope {r : Relation} {k : Nat} (hk : k ≤ r.caller.length) :
    (r.inScope k).length = k + r.path.length := by
  rw [inScope, List.length_append, List.length_take, Nat.min_eq_left hk]

/-- The relation is looked up in the scopes around it: its path does not
start at the root, and there is a scope. -/
def IsRelative (r : Relation) : Prop := (∀ p, r.path ≠ "" :: p) ∧ r.caller ≠ []

/-- What a relation names among some definitions. -/
inductive Names (ds : List Definition) (r : Relation) : ConstPath → Prop
  /-- A path written from the root names what follows the marker. -/
  | rooted {p : ConstPath} : r.path = "" :: p → Names ds r p
  /-- Outside every definition a path names itself. -/
  | outside : (∀ p, r.path ≠ "" :: p) → r.caller = [] → Names ds r r.path
  /-- The innermost scope wins in which the path is defined. -/
  | innermost {k : Nat} : r.IsRelative → k ≤ r.caller.length → Defines ds (r.inScope k) →
      (∀ j, k < j → j ≤ r.caller.length → ¬ Defines ds (r.inScope j)) →
      Names ds r (r.inScope k)
  /-- Defined in no scope, a path names itself. -/
  | undefined : r.IsRelative → (∀ k, k ≤ r.caller.length → ¬ Defines ds (r.inScope k)) →
      Names ds r r.path

/-- A relation that is not relative can only name its own path. -/
theorem isAbsolute_iff (r : Relation) : r.isAbsolute ↔ ¬ r.IsRelative := by
  unfold isAbsolute IsRelative ConstPath.isRooted
  cases hp : r.path with
  | nil => simp
  | cons s p =>
    by_cases hs : s = "" <;> simp [hs, Segment.rootMarker]

/-- The candidates of a relative path, by the length of the scope. -/
theorem candidates_of_isRelative {r : Relation} (h : r.IsRelative) :
    r.candidates = (List.range (r.caller.length + 1)).reverse.map r.inScope := by
  have hnot : r.isAbsolute = false := by
    simpa using mt (r.isAbsolute_iff).1 (not_not.2 h)
  simp [candidates, hnot, ConstPath.scopes, inScope, Function.comp_def]

/-- Searching from the top of a range finds the greatest number that
fits. -/
theorem find?_reverse_range {q : Nat → Bool} {n k : Nat} :
    (List.range n).reverse.find? q = some k ↔
      k < n ∧ q k ∧ ∀ j, k < j → j < n → q j = false := by
  induction n with
  | zero => simp
  | succ n ih =>
    rw [List.range_succ, List.reverse_append, List.reverse_singleton, List.singleton_append,
      List.find?_cons]
    cases hn : q n with
    | true =>
      constructor
      · rintro ⟨rfl⟩
        exact ⟨by omega, hn, fun j h1 h2 => by omega⟩
      · rintro ⟨hk, -, hmax⟩
        rcases Nat.eq_or_lt_of_le (Nat.le_of_lt_succ hk) with rfl | hlt
        · rfl
        · have := hmax n hlt (by omega)
          simp [hn] at this
    | false =>
      rw [ih]
      constructor
      · rintro ⟨hk, hq, hmax⟩
        refine ⟨by omega, hq, fun j h1 h2 => ?_⟩
        rcases Nat.eq_or_lt_of_le (Nat.le_of_lt_succ h2) with rfl | hlt
        · exact hn
        · exact hmax j h1 hlt
      · rintro ⟨hk, hq, hmax⟩
        have hne : k ≠ n := by
          rintro rfl
          simp [hn] at hq
        exact ⟨by omega, hq, fun j h1 h2 => hmax j h1 (by omega)⟩

/-- An absolute relation names its path without the marker, whatever is
defined. -/
theorem resolve_of_isAbsolute {r : Relation} (h : r.isAbsolute) (store : DefinitionStore) :
    r.resolve store = r.path.unroot := by
  unfold resolve candidates globalPath
  rw [if_pos h, if_pos h]
  cases hc : store.contains r.path.unroot <;> simp [hc]

/-- A relative path is put into the innermost scope that defines it, or
stays as it is. -/
theorem resolve_of_isRelative {r : Relation} (h : r.IsRelative) (store : DefinitionStore) :
    r.resolve store =
      (((List.range (r.caller.length + 1)).reverse.find?
        (fun k => store.contains (r.inScope k))).map r.inScope).getD r.path := by
  have hnot : ¬ r.isAbsolute := mt (r.isAbsolute_iff).1 (not_not.2 h)
  unfold resolve globalPath
  rw [candidates_of_isRelative h, List.find?_map, if_neg hnot]
  rfl

/-- The store of some definitions holds the paths these define. -/
theorem contains_ofList_iff_defines {ds : List Definition} {p : ConstPath} :
    (DefinitionStore.ofList ds).contains p ↔ Defines ds p := by
  rw [DefinitionStore.contains_ofList]
  simp [Defines]

theorem isRooted_eq_false_iff {p : ConstPath} : p.isRooted = false ↔ ∀ q, p ≠ "" :: q := by
  cases p with
  | nil => simp [ConstPath.isRooted]
  | cons s p => simp [ConstPath.isRooted, Segment.rootMarker]

/-- A path that does not start with the marker has none to lose. -/
theorem unroot_eq_self {p : ConstPath} (h : ∀ q, p ≠ "" :: q) : p.unroot = p :=
  ConstPath.unroot_of_not_isRooted (isRooted_eq_false_iff.2 h)

/-- What the search comes to is named by the relation. -/
theorem names_resolve (ds : List Definition) (r : Relation) :
    r.Names ds (r.resolve (.ofList ds)) := by
  by_cases hrel : r.IsRelative
  · rw [resolve_of_isRelative hrel]
    cases hfind : (List.range (r.caller.length + 1)).reverse.find?
        (fun k => (DefinitionStore.ofList ds).contains (r.inScope k)) with
    | some k =>
      obtain ⟨hk, hdef, hmax⟩ := find?_reverse_range.1 hfind
      refine .innermost hrel (by omega) (contains_ofList_iff_defines.1 hdef) ?_
      intro j h1 h2 hj
      have := hmax j h1 (by omega)
      simp [contains_ofList_iff_defines.2 hj] at this
    | none =>
      refine .undefined hrel ?_
      intro k hk hdef
      have := List.find?_eq_none.1 hfind k (by simp; omega)
      exact this (contains_ofList_iff_defines.2 hdef)
  · rw [resolve_of_isAbsolute ((r.isAbsolute_iff).2 hrel)]
    by_cases hroot : ∃ q, r.path = "" :: q
    · obtain ⟨q, hq⟩ := hroot
      rw [hq, ConstPath.unroot_marker]
      exact .rooted hq
    · have hnot : ∀ q, r.path ≠ "" :: q := fun q hq => hroot ⟨q, hq⟩
      have hcaller : r.caller = [] := by
        by_contra hne
        exact hrel ⟨hnot, hne⟩
      rw [unroot_eq_self hnot]
      exact .outside hnot hcaller

/-- **A relative path keeps to itself** exactly if no scope around it
defines it. -/
theorem resolve_eq_path_iff {r : Relation} (h : r.IsRelative) (ds : List Definition) :
    r.resolve (.ofList ds) = r.path ↔
      ∀ k, 0 < k → k ≤ r.caller.length → ¬ Defines ds (r.inScope k) := by
  have hinner : ∀ k, k ≤ r.caller.length → r.inScope k = r.path → k = 0 := by
    intro k hk heq
    have hlength := congrArg List.length heq
    rw [length_inScope hk] at hlength
    omega
  rw [resolve_of_isRelative h]
  cases hfind : (List.range (r.caller.length + 1)).reverse.find?
      (fun k => (DefinitionStore.ofList ds).contains (r.inScope k)) with
  | none =>
    refine ⟨fun _ k _ hk hdef => ?_, fun _ => rfl⟩
    have := List.find?_eq_none.1 hfind k (by simp; omega)
    exact this (contains_ofList_iff_defines.2 hdef)
  | some j =>
    obtain ⟨hj, hdef, hmax⟩ := find?_reverse_range.1 hfind
    constructor
    · intro heq k hk hle hk'
      have hj0 : j = 0 := hinner j (by omega) heq
      have := hmax k (by omega) (by omega)
      simp [contains_ofList_iff_defines.2 hk'] at this
    · intro hnone
      have hj0 : j = 0 := by
        by_contra hne
        exact hnone j (by omega) (by omega) (contains_ofList_iff_defines.1 hdef)
      subst hj0
      rfl

/-- **At most one path is named.** Two innermost scopes are the same one,
and a path with an innermost scope is not undefined. -/
theorem Names.unique {ds : List Definition} {r : Relation} {p q : ConstPath}
    (hp : r.Names ds p) (hq : r.Names ds q) : p = q := by
  cases hp with
  | rooted hp =>
    cases hq with
    | rooted hq =>
      rw [hp] at hq
      injection hq
    | outside hnot _ => exact absurd hp (hnot p)
    | innermost hrel _ _ _ => exact absurd hp (hrel.1 p)
    | undefined hrel _ => exact absurd hp (hrel.1 p)
  | outside hnot hcaller =>
    cases hq with
    | rooted hq => exact absurd hq (hnot q)
    | outside _ _ => rfl
    | innermost hrel _ _ _ => exact absurd hcaller hrel.2
    | undefined hrel _ => exact absurd hcaller hrel.2
  | @innermost k hrel hk hdef hmax =>
    cases hq with
    | rooted hq => exact absurd hq (hrel.1 q)
    | outside _ hcaller => exact absurd hcaller hrel.2
    | @innermost j _ hj hdef' hmax' =>
      rcases Nat.lt_trichotomy k j with h | rfl | h
      · exact absurd hdef' (hmax j h hj)
      · rfl
      · exact absurd hdef (hmax' k h hk)
    | undefined _ hnone => exact absurd hdef (hnone k hk)
  | undefined hrel hnone =>
    cases hq with
    | rooted hq => exact absurd hq (hrel.1 q)
    | outside _ hcaller => exact absurd hcaller hrel.2
    | @innermost j _ hj hdef _ => exact absurd hdef (hnone j hj)
    | undefined _ _ => rfl

/-- **A relation resolves to the one path it names.** The candidates are
tried from the innermost scope outwards, so what is found first is in the
largest scope with a definition; where nothing is found the path itself is
left. -/
theorem resolve_eq_iff (ds : List Definition) (r : Relation) (p : ConstPath) :
    r.resolve (.ofList ds) = p ↔ r.Names ds p := by
  constructor
  · rintro rfl
    exact r.names_resolve ds
  · exact (r.names_resolve ds).unique

end Relation

end ConstGraph
