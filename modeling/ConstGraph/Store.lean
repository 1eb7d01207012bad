import ConstGraph.Record

/-!
# The definition store

All definitions of a project, in the order of their paths. The order is
fixed when the store is built and kept in its type, so a path is found by
halving the interval it can lie in.
-/

namespace ConstGraph

namespace Definition

variable {σ ν : Type} [Segment σ]

/-- One definition may stand before another. -/
def precedes (a b : Definition σ ν) : Bool := (a.order b).isLE

theorem precedes_iff (a b : Definition σ ν) :
    a.precedes b = true ↔
      compare a.path b.path = .lt ∨
        (compare a.path b.path = .eq ∧ (compare a.kind.label b.kind.label).isLE) := by
  unfold precedes order
  cases h : compare a.path b.path <;> simp [Ordering.then]

theorem precedes_total (a b : Definition σ ν) : (a.precedes b || b.precedes a) = true := by
  have hp : compare b.path a.path = (compare a.path b.path).swap :=
    Std.OrientedCmp.eq_swap
  have hk : compare b.kind.label a.kind.label = (compare a.kind.label b.kind.label).swap :=
    Std.OrientedCmp.eq_swap
  simp only [precedes, order, hp, hk]
  cases compare a.path b.path <;> cases compare a.kind.label b.kind.label <;> rfl

theorem precedes_trans (a b c : Definition σ ν) (hab : a.precedes b = true)
    (hbc : b.precedes c = true) : a.precedes c = true := by
  rw [precedes_iff] at hab hbc ⊢
  obtain hab | ⟨pab, kab⟩ := hab <;> obtain hbc | ⟨pbc, kbc⟩ := hbc
  · exact .inl (Std.TransCmp.lt_trans hab hbc)
  · exact .inl (Std.TransCmp.lt_of_lt_of_eq hab pbc)
  · exact .inl (Std.TransCmp.lt_of_eq_of_lt pab hbc)
  · exact .inr ⟨Std.TransCmp.eq_trans pab pbc, Std.TransCmp.isLE_trans kab kbc⟩

end Definition

/-- The definitions of a project, each before those it precedes. -/
structure DefinitionStore (σ : Type := String) (ν : Type := Int) [Segment σ] where
  /-- The definitions in order. -/
  entries : Array (Definition σ ν)
  /-- They are in order. -/
  sorted : entries.toList.Pairwise (Definition.precedes · ·)

namespace DefinitionStore

variable {σ ν : Type} [Segment σ]

/-- The definitions in order. -/
def toList (s : DefinitionStore σ ν) : List (Definition σ ν) := s.entries.toList

/-- The store of some definitions. Those that neither path nor kind tells
apart keep their order. -/
def ofList (ds : List (Definition σ ν)) : DefinitionStore σ ν where
  entries := (ds.mergeSort Definition.precedes).toArray
  sorted := List.pairwise_mergeSort Definition.precedes_trans Definition.precedes_total ds

/-- A store without definitions. -/
def empty : DefinitionStore σ ν := ofList []

/-- The number of definitions. -/
def size (s : DefinitionStore σ ν) : Nat := s.entries.size

/-- The store with more definitions. -/
def merge (s : DefinitionStore σ ν) (ds : List (Definition σ ν)) : DefinitionStore σ ν :=
  ofList (s.toList ++ ds)

/-- The store of the definitions of some stores. -/
def merged (ss : List (DefinitionStore σ ν)) : DefinitionStore σ ν :=
  ofList (ss.flatMap toList)

/-! ## Looking up a path -/

/-- The first place between `lo` and `hi` whose path is not below `p`,
found by halving. -/
def search (ds : Array (Definition σ ν)) (p : ConstPath σ) (lo hi : Nat) : Nat :=
  if lo < hi then
    let mid := (lo + hi) / 2
    match ds[mid]? with
    | none => lo
    | some d =>
      if (compare d.path p).isLT then search ds p (mid + 1) hi else search ds p lo mid
  else lo
termination_by hi - lo

/-- The first place whose path is not below `p`. -/
def lowerBound (s : DefinitionStore σ ν) (p : ConstPath σ) : Nat :=
  search s.entries p 0 s.size

/-- Every definition of a path, in order. -/
def findAll (s : DefinitionStore σ ν) (p : ConstPath σ) : List (Definition σ ν) :=
  (s.toList.drop (s.lowerBound p)).takeWhile (·.path == p)

/-- The first definition of a path. -/
def find? (s : DefinitionStore σ ν) (p : ConstPath σ) : Option (Definition σ ν) :=
  match s.entries[s.lowerBound p]? with
  | none => none
  | some d => if d.path == p then some d else none

/-- The path is defined. -/
def contains (s : DefinitionStore σ ν) (p : ConstPath σ) : Bool := (s.find? p).isSome

/-- The store in short. -/
def text (s : DefinitionStore σ ν) : String := s!"DefinitionStore({s.size} definitions)"

end DefinitionStore

end ConstGraph
