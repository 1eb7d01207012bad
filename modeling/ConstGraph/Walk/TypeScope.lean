import ConstGraph.Path
import ConstGraph.Text.Quoted

/-!
# Types of local variables

A type scope lists the local variables whose type is known, in the order
they were first bound. Binding returns a new scope, so each point of a
walk sees exactly the bindings made before it. Binding an unknown type
forgets the name.
-/

namespace ConstGraph

/-- The class path of a value, and whether it is known at all. -/
structure InferredType where
  /-- The path of the class. -/
  path : ConstPath
  /-- Whether the type was found rather than assumed. -/
  known : Bool := true
  deriving DecidableEq, Repr

/-- The type of a value nothing is known about. -/
def InferredType.unknown : InferredType := ⟨["Untyped"], false⟩

/-- The type as text. -/
def InferredType.text (t : InferredType) : String :=
  let known := if t.known then "True" else "False"
  s!"InferredType(path={Text.quotedTuple t.path}, known={known})"

/-- The types of the local variables, in the order of their first binding. -/
structure TypeScope where
  /-- Each name with its type; no name stands twice. -/
  entries : List (String × InferredType)
  deriving DecidableEq, Repr

namespace TypeScope

/-- No type is known. -/
def empty : TypeScope := ⟨[]⟩

/-- The entry of a name, if it has one. -/
def get? (s : TypeScope) (x : String) : Option InferredType :=
  s.entries.lookup x

/-- The type of a name, unknown where nothing is recorded. -/
def lookup (s : TypeScope) (x : String) : InferredType :=
  (s.get? x).getD .unknown

/-- The name has an entry. -/
def contains (s : TypeScope) (x : String) : Bool :=
  (s.get? x).isSome

/-- The number of entries. -/
def size (s : TypeScope) : Nat := s.entries.length

/-- Put a type in the place of the name's entry, or at the end. -/
def assign (x : String) (t : InferredType) :
    List (String × InferredType) → List (String × InferredType)
  | [] => [(x, t)]
  | (y, u) :: rest => if x = y then (y, t) :: rest else (y, u) :: assign x t rest

/-- The scope with an entry set, whether or not its type is known. -/
def set (s : TypeScope) (x : String) (t : InferredType) : TypeScope :=
  ⟨assign x t s.entries⟩

/-- The scope without an entry for the name. -/
def erase (s : TypeScope) (x : String) : TypeScope :=
  ⟨s.entries.filter (·.1 != x)⟩

/-- The scope after the name is given a type: a known type takes the
name's place, an unknown one forgets it. -/
def bind (s : TypeScope) (x : String) (t : InferredType) : TypeScope :=
  if t.known then s.set x t else s.erase x

/-- The scope of a list of entries, a later one replacing an earlier one
of the same name. -/
def ofList (entries : List (String × InferredType)) : TypeScope :=
  entries.foldl (fun s e => s.set e.1 e.2) empty

/-- Two scopes give every name the same entry, in whatever order. -/
def agrees (s t : TypeScope) : Bool :=
  s.size == t.size && s.entries.all fun e => t.get? e.1 == some e.2

/-- The scope as text, its entries in order. -/
def text (s : TypeScope) : String :=
  let entry (e : String × InferredType) := Text.quoted e.1 ++ ": " ++ e.2.text
  "TypeScope(\x7b" ++ ", ".intercalate (s.entries.map entry) ++ "\x7d)"

end TypeScope

end ConstGraph
