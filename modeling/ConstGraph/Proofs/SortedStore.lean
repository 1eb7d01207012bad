import ConstGraph.Proofs.FileOrder
import Mathlib.Data.String.Basic

/-!
# The store as a sorted list

A store is made by sorting, and the sort is stable. So the definitions of a
path, taken from the store, are those of the list it was made from: the
classes first and then the modules, each in the order of the list.

The order itself is told without any comparison function: paths are
compared as lists of texts and texts as lists of code points, a prefix
before what extends it (`StandsBefore`). `ofList_sorted_lookup` says all of
this of one store.
-/

namespace ConstGraph

/-! ## The order of texts and paths -/

namespace Text

/-- The code points of a text. -/
def codes (s : String) : List Nat := s.toList.map Char.toNat

theorem codes_lt_codes_iff {s t : String} : codes s < codes t ↔ s < t := by
  rw [String.lt_iff, codes, codes]
  generalize s.toList = cs
  generalize t.toList = ds
  induction cs generalizing ds with
  | nil => cases ds <;> simp
  | cons c cs ih =>
    cases ds with
    | nil => simp
    | cons d ds =>
      have hlt : c.toNat < d.toNat ↔ c < d := (Char.lt_def.trans UInt32.lt_iff_toNat_lt).symm
      have heq : c.toNat = d.toNat ↔ c = d := Char.toNat_inj
      rw [List.map_cons, List.map_cons, List.cons_lt_cons_iff, List.cons_lt_cons_iff, ih, hlt, heq]

/-- **Texts are compared by their code points.** -/
theorem compare_eq_lt_iff {s t : String} : compare s t = .lt ↔ codes s < codes t :=
  compare_lt_iff_lt.trans codes_lt_codes_iff.symm

end Text

namespace ConstPath

/-- The code points of the segments of a path. -/
def codes (p : ConstPath) : List (List Nat) := p.map Text.codes

/-- **Paths are compared segment by segment**, and a path stands before
those that extend it. -/
theorem codes_lt_of_compare {p q : ConstPath} (h : compare p q = .lt) : p.codes < q.codes := by
  induction p generalizing q with
  | nil =>
    cases q with
    | nil => simp at h
    | cons t q => exact List.nil_lt_cons _ _
  | cons s p ih =>
    cases q with
    | nil => simp at h
    | cons t q =>
      rw [List.compare_cons_cons, Ordering.then_eq_lt] at h
      refine List.cons_lt_cons_iff.2 ?_
      rcases h with hlt | ⟨heq, hrest⟩
      · exact Or.inl (Text.compare_eq_lt_iff.1 hlt)
      · exact Or.inr ⟨congrArg Text.codes (Std.LawfulEqCmp.eq_of_compare heq), ih hrest⟩

end ConstPath

namespace Definition

/-- A definition stands before another if its path is less, or if the paths
are one and the word of its kind is not greater: in the order of lists of
code points, where a prefix is less than what extends it. -/
def StandsBefore (a b : Definition) : Prop :=
  a.path.codes < b.path.codes ∨
    a.path = b.path ∧ Text.codes a.kind.label ≤ Text.codes b.kind.label

theorem standsBefore_of_precedes {a b : Definition} (h : a.precedes b) : a.StandsBefore b := by
  rcases (precedes_iff a b).1 h with hlt | ⟨hpath, hlabel⟩
  · exact Or.inl (ConstPath.codes_lt_of_compare hlt)
  · refine Or.inr ⟨eq_of_beq (Std.compare_eq_iff_beq.1 hpath), ?_⟩
    have hle : a.kind.label ≤ b.kind.label := compare_le_iff_le.1 (Ordering.isLE_iff_ne_gt.1 hlabel)
    exact not_lt.1 fun hgt => absurd (Text.codes_lt_codes_iff.1 hgt) (not_lt.2 hle)

end Definition

/-! ## The definitions of a path -/

/-- Where no member passes a test after one that fails it, the members that
pass come first and the others after them. -/
theorem filter_append_filter_not {α : Type} {test : α → Bool} {xs : List α}
    (h : xs.Pairwise fun a b => test b → test a) :
    xs.filter test ++ xs.filter (fun x => !test x) = xs := by
  induction xs with
  | nil => rfl
  | cons x xs ih =>
    obtain ⟨hx, hxs⟩ := List.pairwise_cons.1 h
    cases htest : test x with
    | true => simp [htest, ih hxs]
    | false =>
      have hnone : ∀ y ∈ xs, test y = false := by
        intro y hy
        by_contra hy'
        simp [hx y hy (by simpa using hy')] at htest
      have hfirst : xs.filter test = [] := List.filter_eq_nil_iff.2 (by simpa using hnone)
      have hrest : xs.filter (fun x => !test x) = xs := List.filter_eq_self.2 (by simpa using hnone)
      simp [htest, hfirst, hrest]

namespace DefinitionStore

/-- **The sort is stable**: definitions that may all stand before each other
keep the order in which they came. -/
theorem filter_toList_ofList {σ ν : Type} [Segment σ] (ds : List (Definition σ ν))
    (test : Definition σ ν → Bool) (h : ∀ a b, test a → test b → a.precedes b) :
    (ofList ds).toList.filter test = ds.filter test := by
  -- they are in order as they came, so the sort keeps them as a part
  have hties : (ds.filter test).Pairwise (Definition.precedes · ·) := by
    refine List.pairwise_iff_forall_sublist.2 fun {a b} hab => ?_
    have ha := List.mem_filter.1 (hab.subset (List.mem_cons_self))
    have hb := List.mem_filter.1 (hab.subset (List.mem_cons_of_mem _ List.mem_cons_self))
    exact h a b ha.2 hb.2
  have hpart : (ds.filter test).Sublist (ofList ds).toList :=
    List.sublist_mergeSort Definition.precedes_trans Definition.precedes_total hties
      List.filter_sublist
  have hkept : (ds.filter test).Sublist ((ofList ds).toList.filter test) := by
    have hfiltered := hpart.filter test
    simpa only [List.filter_filter, Bool.and_self] using hfiltered
  have hlength : (ds.filter test).length = ((ofList ds).toList.filter test).length :=
    ((toList_ofList_perm ds).filter test).length_eq.symm
  exact (hkept.eq_of_length hlength).symm

/-- Definitions of one path and one kind may stand in any order. -/
theorem precedes_of_path_kind {p : ConstPath} {k : DefinitionKind} {a b : Definition}
    (ha : a.path == p && a.kind == k) (hb : b.path == p && b.kind == k) : a.precedes b := by
  simp only [Bool.and_eq_true, beq_iff_eq] at ha hb
  refine (Definition.precedes_iff a b).2 (Or.inr ⟨?_, ?_⟩)
  · rw [ha.1, hb.1]
    exact Std.ReflCmp.compare_self
  · rw [ha.2, hb.2]
    exact Std.ReflCmp.isLE_rfl

/-- The definitions of a path and a kind come as they came. -/
theorem filter_kind_findAll (ds : List Definition) (p : ConstPath) (k : DefinitionKind) :
    ((ofList ds).findAll p).filter (·.kind == k) =
      ds.filter fun d => d.path == p && d.kind == k := by
  have hboth : ((ofList ds).findAll p).filter (·.kind == k) =
      (ofList ds).toList.filter fun d => d.path == p && d.kind == k := by
    rw [findAll_eq_filter, List.filter_filter]
    exact List.filter_congr fun d _ => Bool.and_comm _ _
  rw [hboth, filter_toList_ofList ds _ fun _ _ => precedes_of_path_kind]

/-- In a store no class stands after a module of its path. -/
theorem kind_of_precedes {a b : Definition} (h : a.precedes b) (hpath : a.path = b.path)
    (hb : b.kind = .ofClass) : a.kind = .ofClass := by
  cases hkind : a.kind with
  | ofClass => rfl
  | ofModule =>
    rcases (Definition.precedes_iff a b).1 h with hlt | ⟨-, hlabel⟩
    · simp [hpath] at hlt
    · rw [hkind, hb] at hlabel
      exact absurd hlabel (by decide)

/-- **The definitions of a path** are its classes and then its modules, as
they came. -/
theorem findAll_ofList (ds : List Definition) (p : ConstPath) :
    (ofList ds).findAll p =
      ds.filter (fun d => d.path == p && d.kind == .ofClass) ++
        ds.filter (fun d => d.path == p && d.kind == .ofModule) := by
  -- in order of kinds the classes come first
  have hsplit : ((ofList ds).findAll p).Pairwise
      fun a b => b.kind == .ofClass → a.kind == .ofClass := by
    rw [findAll_eq_filter]
    refine ((ofList ds).sorted.sublist List.filter_sublist).imp_of_mem ?_
    intro a b ha hb hprec hclass
    have hpaths : a.path = b.path :=
      (eq_of_beq (List.mem_filter.1 ha).2).trans (eq_of_beq (List.mem_filter.1 hb).2).symm
    simpa using kind_of_precedes hprec hpaths (by simpa using hclass)
  have hmodule : (fun d : Definition => !(d.kind == .ofClass)) = fun d => d.kind == .ofModule := by
    funext d
    cases d.kind <;> rfl
  rw [← filter_append_filter_not hsplit, hmodule, filter_kind_findAll, filter_kind_findAll]

/-- **What one lookup finds is the first of all.** -/
theorem find?_eq_head? (s : DefinitionStore) (p : ConstPath) :
    s.find? p = (s.findAll p).head? := by
  rw [findAll, List.head?_takeWhile, List.head?_drop, find?, toList, Array.getElem?_toList]
  cases s.entries[s.lowerBound p]? with
  | none => rfl
  | some d => rw [Option.filter_some]

/-- **A store is its definitions, sorted and with nothing lost.** All
definitions of a path are found, the classes before the modules and each in
the order they came; the one lookup finds the first of them, and a path is
contained exactly if it is defined. In turn the store lists the definitions
it was made from, each as often as it came, by path and kind in the order
of code points. -/
theorem ofList_sorted_lookup (ds : List Definition) (p : ConstPath) :
    (ofList ds).findAll p =
        ds.filter (fun d => d.path == p && d.kind == .ofClass) ++
          ds.filter (fun d => d.path == p && d.kind == .ofModule) ∧
      (ofList ds).find? p = ((ofList ds).findAll p).head? ∧
      ((ofList ds).contains p ↔ ∃ d ∈ ds, d.path = p) ∧
      (ofList ds).toList.Perm ds ∧
      (ofList ds).toList.Pairwise Definition.StandsBefore := by
  refine ⟨findAll_ofList ds p, find?_eq_head? _ p, ?_, toList_ofList_perm ds, ?_⟩
  · simpa using contains_ofList ds p
  · exact (ofList ds).sorted.imp Definition.standsBefore_of_precedes

end DefinitionStore

end ConstGraph
