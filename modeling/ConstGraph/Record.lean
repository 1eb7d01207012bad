import ConstGraph.Path

/-!
# Definitions and relations

What the walk of a file produces. A definition is a place where a class or
module is opened; a relation is a constant mentioned or a method called,
together with the scope it stands in.

Found in a source, their names are texts and their lines integers. Read
back from where they were stored they may hold any values, so both types
are parameters: `σ` is what names and files are, `ν` what lines are.
-/

namespace ConstGraph

/-- What a definition opens. -/
inductive DefinitionKind where
  /-- A class. -/
  | ofClass
  /-- A module. -/
  | ofModule
  deriving DecidableEq, Repr

namespace DefinitionKind

/-- The word a kind is written by. -/
def label : DefinitionKind → String
  | ofClass => "Class"
  | ofModule => "Module"

/-- The kind a word stands for. -/
def ofLabel? (text : String) : Option DefinitionKind :=
  [ofClass, ofModule].find? (·.label == text)

theorem ofLabel?_label (k : DefinitionKind) : ofLabel? k.label = some k := by
  cases k <;> decide

end DefinitionKind

/-- A place where a class or module is opened. -/
structure Definition (σ : Type := String) (ν : Type := Int) where
  /-- The full path of what is opened. -/
  path : ConstPath σ
  /-- Class or module. -/
  kind : DefinitionKind
  /-- The file it stands in. -/
  file : σ
  /-- The line it starts on. -/
  line : ν
  /-- The number of lines it covers. -/
  lines : ν
  deriving BEq, ReflBEq, LawfulBEq, Repr

namespace Definition

variable {σ ν τ μ : Type}

/-- Definitions are ordered by path, then by kind: the segments one by one,
a shorter path before its extensions, and the kinds by their words. -/
def order [Ord σ] (a b : Definition σ ν) : Ordering :=
  (compare a.path b.path).then (compare a.kind.label b.kind.label)

/-- The definition with its names and its lines changed. -/
def map (f : σ → τ) (g : ν → μ) (d : Definition σ ν) : Definition τ μ :=
  ⟨d.path.map f, d.kind, f d.file, g d.line, g d.lines⟩

end Definition

/-- A constant mentioned, or a method called, inside some scope. -/
structure Relation (σ : Type := String) (ν : Type := Int) where
  /-- The path as written, or the type of the receiver. -/
  path : ConstPath σ
  /-- The path of the innermost definition around it. -/
  caller : ConstPath σ
  /-- The innermost method around it, or the marker call around it. -/
  inMethod : σ
  /-- The method called on `path`; empty for a bare constant. -/
  callee : σ
  /-- The file it stands in. -/
  file : σ
  /-- The line it starts on. -/
  line : ν
  deriving BEq, ReflBEq, LawfulBEq, Repr

namespace Relation

variable {σ ν τ μ : Type}

/-- The relation can only name its own path: it is rooted, or stands
outside every definition. -/
def isAbsolute [Segment σ] (r : Relation σ ν) : Bool :=
  r.path.isRooted || r.caller.isEmpty

/-- The relation with its names and its line changed. -/
def map (f : σ → τ) (g : ν → μ) (r : Relation σ ν) : Relation τ μ :=
  ⟨r.path.map f, r.caller.map f, f r.inMethod, f r.callee, f r.file, g r.line⟩

end Relation

/-- One thing found by a walk. -/
inductive Record where
  /-- A class or module opened. -/
  | definition (d : Definition)
  /-- A constant mentioned or a method called. -/
  | relation (r : Relation)
  deriving BEq, ReflBEq, LawfulBEq, Repr

namespace Record

/-- The definition a record is, if it is one. -/
def definition? : Record → Option Definition
  | definition d => some d
  | relation _ => none

/-- The relation a record is, if it is one. -/
def relation? : Record → Option Relation
  | relation r => some r
  | definition _ => none

end Record

/-- The definitions and the relations of one file, each in the order of
the source. -/
structure WalkResult (σ : Type := String) (ν : Type := Int) where
  /-- The classes and modules opened. -/
  definitions : List (Definition σ ν)
  /-- The constants mentioned and methods called. -/
  relations : List (Relation σ ν)
  deriving BEq, ReflBEq, LawfulBEq, Repr, Inhabited

namespace WalkResult

variable {σ ν τ μ : Type}

/-- Nothing found. -/
def empty : WalkResult σ ν := ⟨[], []⟩

/-- The records of a walk, the two sorts apart. -/
def ofRecords (records : List Record) : WalkResult :=
  ⟨records.filterMap Record.definition?, records.filterMap Record.relation?⟩

/-- Something was found. -/
def isNonempty (r : WalkResult σ ν) : Bool :=
  !r.definitions.isEmpty || !r.relations.isEmpty

/-- The result with the names and the lines of its records changed. -/
def map (f : σ → τ) (g : ν → μ) (r : WalkResult σ ν) : WalkResult τ μ :=
  ⟨r.definitions.map (·.map f g), r.relations.map (·.map f g)⟩

end WalkResult

end ConstGraph
