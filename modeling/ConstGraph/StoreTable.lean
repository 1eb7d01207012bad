import ConstGraph.Store

/-!
# Stores made from stores

A store stays as it was made; what grows is the number of stores. Each
call makes one more, from definitions or from stores made before, and a
store is known by its place in the order in which they were made.
-/

namespace ConstGraph

/-- A call that makes a store. Stores made before are given by their
places. -/
inductive StoreCall (σ : Type := String) (ν : Type := Int) where
  /-- The store of some definitions. -/
  | ofList (ds : List (Definition σ ν))
  /-- The store of the definitions of some stores. -/
  | merged (places : List Nat)
  /-- A store with more definitions. -/
  | merge (place : Nat) (ds : List (Definition σ ν))
  /-- A store with the definitions of another. -/
  | mergeStore (place other : Nat)

/-- The stores there are, in the order in which they were made. -/
structure StoreTable (σ : Type := String) (ν : Type := Int) [Segment σ] where
  /-- The stores. -/
  stores : Array (DefinitionStore σ ν) := #[]

namespace StoreTable

variable {σ ν : Type} [Segment σ]

/-- The store at a place. -/
def store (t : StoreTable σ ν) (place : Nat) : DefinitionStore σ ν :=
  t.stores.getD place .empty

/-- The store a call makes. -/
def made (t : StoreTable σ ν) : StoreCall σ ν → DefinitionStore σ ν
  | .ofList ds => .ofList ds
  | .merged places => .merged (places.map t.store)
  | .merge place ds => (t.store place).merge ds
  | .mergeStore place other => (t.store place).merge (t.store other).toList

/-- The table with one more store. -/
def add (t : StoreTable σ ν) (s : DefinitionStore σ ν) : StoreTable σ ν := ⟨t.stores.push s⟩

/-- The table after a call. -/
def call (t : StoreTable σ ν) (c : StoreCall σ ν) : StoreTable σ ν := t.add (t.made c)

/-- The table after some calls. -/
def run (t : StoreTable σ ν) (calls : List (StoreCall σ ν)) : StoreTable σ ν :=
  calls.foldl call t

end StoreTable

end ConstGraph
