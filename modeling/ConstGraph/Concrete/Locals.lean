/-!
# Local variables in scope

A local scope is a chain of frames, the innermost first. A name is in
scope if some frame holds it; a declaration goes into the innermost frame.
A block opens a frame of its own; a method, class or module starts a chain
of its own.

`ScopeTable` keeps many scopes at once, each knowing its parent, so that a
declaration made in a scope shows in every scope opened inside it.
-/

namespace ConstGraph

/-- The local variables visible at a point, innermost frame first. -/
structure LocalScope where
  /-- The names declared in the innermost frame. -/
  names : List String := []
  /-- The frames around it. -/
  enclosing : List (List String) := []
  deriving DecidableEq, Repr

namespace LocalScope

/-- A scope without any local. -/
def empty : LocalScope := {}

/-- A name added to a frame that may hold it already. -/
def insert (x : String) (names : List String) : List String :=
  if x ∈ names then names else x :: names

/-- The scope after a declaration. -/
def declare (s : LocalScope) (x : String) : LocalScope :=
  { s with names := insert x s.names }

/-- A scope opened inside this one. -/
def child (s : LocalScope) : LocalScope := ⟨[], s.names :: s.enclosing⟩

/-- The name is a local variable here. -/
def contains (s : LocalScope) (x : String) : Bool :=
  (s.names :: s.enclosing).any (·.contains x)

end LocalScope

/-- A family of scopes, each the child of an earlier one or of none. -/
structure ScopeTable where
  /-- For each scope its parent and the names of its own frame. -/
  scopes : Array (Option Nat × List String) := #[(none, [])]
  deriving Repr

namespace ScopeTable

/-- The names of the frames from a scope outwards. -/
def frames (t : ScopeTable) (i : Nat) : List (List String) :=
  match t.scopes[i]? with
  | none => []
  | some (none, names) => [names]
  | some (some parent, names) => names :: if parent < i then t.frames parent else []
termination_by i

/-- The chain of frames a scope sees. -/
def scope (t : ScopeTable) (i : Nat) : LocalScope :=
  match t.frames i with
  | [] => .empty
  | names :: enclosing => ⟨names, enclosing⟩

/-- The table after a declaration in a scope. -/
def declare (t : ScopeTable) (i : Nat) (x : String) : ScopeTable :=
  ⟨t.scopes.modify i fun s => (s.1, LocalScope.insert x s.2)⟩

/-- The table with a scope opened inside another, and its number. -/
def child (t : ScopeTable) (i : Nat) : ScopeTable × Nat :=
  (⟨t.scopes.push (some i, [])⟩, t.scopes.size)

end ScopeTable

end ConstGraph
