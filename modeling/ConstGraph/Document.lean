import ConstGraph.DependencyGraph
import ConstGraph.Json.Display
import ConstGraph.Json.Printer

/-!
# JSON forms of the graph

Definitions and relations are kept as JSON objects with all their fields
and read back field by field. Only the paths and the kind are looked at
when they are: what else a record holds is taken as it is. The exported
document shows a whole dependency graph, its paths as text and every
record with its outcome.
-/

namespace ConstGraph

/-- Why an object is no record. -/
inductive RecordError where
  /-- A field is missing. -/
  | missing (field : String)
  /-- A definition is of no known kind. -/
  | unknownKind (kind : Json)
  /-- A value is not what a record has there. -/
  | malformed
  deriving Repr

/-- The text of a record error. -/
def RecordError.message : RecordError → String
  | missing field => Text.quoted field
  | unknownKind kind => s!"{kind.describe} is not a valid DefinitionKind"
  | malformed => ""

namespace RecordField

/-- The field of an object. -/
def get (j : Json) (field : String) : Except RecordError Json :=
  match j with
  | .obj _ =>
    match j.get? field with
    | some v => .ok v
    | none => .error (.missing field)
  | _ => .error .malformed

/-- A path: the items of an array, the characters of a text, or the field
names of an object. -/
def path (j : Json) (field : String) : Except RecordError (ConstPath Json) := do
  match (← get j field).elements? with
  | some p => .ok p
  | none => .error .malformed

/-- The kind of a definition. -/
def kind (j : Json) (field : String) : Except RecordError DefinitionKind := do
  let v ← get j field
  match v.str?.bind DefinitionKind.ofLabel? with
  | some k => .ok k
  | none => .error (.unknownKind v)

end RecordField

namespace Definition

variable {σ ν : Type} [Storable σ] [Storable ν]

/-- A definition as an object. -/
def toJson (d : Definition σ ν) : Json :=
  .obj [("namespace", .ofList d.path), ("kind", .str d.kind.label),
    ("file", Storable.toJson d.file), ("line", Storable.toJson d.line),
    ("lines", Storable.toJson d.lines)]

/-- The definition an object stands for. -/
def ofJson (j : Json) : Except RecordError (Definition Json Json) := do
  let path ← RecordField.path j "namespace"
  let kind ← RecordField.kind j "kind"
  let file ← RecordField.get j "file"
  let line ← RecordField.get j "line"
  let lines ← RecordField.get j "lines"
  return { path, kind, file, line, lines }

end Definition

namespace Relation

variable {σ ν : Type} [Storable σ] [Storable ν]

/-- A relation as an object. -/
def toJson (r : Relation σ ν) : Json :=
  .obj [("namespace", .ofList r.path), ("caller_namespace", .ofList r.caller),
    ("def_name", Storable.toJson r.inMethod), ("target_method", Storable.toJson r.callee),
    ("file", Storable.toJson r.file), ("line", Storable.toJson r.line)]

/-- The relation an object stands for. -/
def ofJson (j : Json) : Except RecordError (Relation Json Json) := do
  let path ← RecordField.path j "namespace"
  let caller ← RecordField.path j "caller_namespace"
  let inMethod ← RecordField.get j "def_name"
  let callee ← RecordField.get j "target_method"
  let file ← RecordField.get j "file"
  let line ← RecordField.get j "line"
  return { path, caller, inMethod, callee, file, line }

end Relation

/-- What a walk has found, as it is stored. -/
def WalkResult.values {σ ν : Type} [Storable σ] [Storable ν] (r : WalkResult σ ν) :
    WalkResult Json Json :=
  r.map Storable.toJson Storable.toJson

/-! ## The exported document -/

/-- A path as text, its segments as messages show them. -/
def ConstPath.shown {σ : Type} [Storable σ] (separator : String) (p : ConstPath σ) : String :=
  ConstPath.render separator (p.map Storable.text)

/-- Where segments are texts they are shown as they are, with the separator
between them. -/
theorem ConstPath.shown_eq_intercalate (separator : String) (p : ConstPath) :
    p.shown separator = separator.intercalate p := by
  have htext : (Storable.text : String → String) = id := rfl
  rw [ConstPath.shown, htext, List.map_id, ConstPath.render]

namespace DependencyGraph

variable {σ ν : Type} [Segment σ] [BEq ν] [Storable σ] [Storable ν]

/-- A definition in the document. -/
def definitionEntry (g : DependencyGraph σ ν) (separator : String) (d : Definition σ ν) : Json :=
  .obj [("type", .str d.kind.label), ("namespace", .str (d.path.shown separator)),
    ("circular", .bool (g.flags.hasDefinition d)), ("file", Storable.toJson d.file),
    ("line", Storable.toJson d.line), ("lines", Storable.toJson d.lines)]

/-- A relation in the document. -/
def relationEntry (g : DependencyGraph σ ν) (separator : String) (r : Relation σ ν) : Json :=
  .obj [("type", .str "Relation"), ("namespace", .str (r.path.shown separator)),
    ("resolved_namespace", .str ((g.resolve r).shown separator)),
    ("caller", .str (r.caller.shown separator)), ("def_name", Storable.toJson r.inMethod),
    ("target_method", Storable.toJson r.callee), ("file", Storable.toJson r.file),
    ("circular", .bool (g.flags.hasRelation r)), ("line", Storable.toJson r.line)]

/-- The document: the definitions in order, then the relations. -/
def document (g : DependencyGraph σ ν) (separator : String) : Json :=
  .obj [("definitions", .arr (g.definitions.map (g.definitionEntry separator))),
    ("relations", .arr (g.relations.map (g.relationEntry separator)))]

/-- The text of the document. -/
def exported (g : DependencyGraph σ ν) (separator : String) (layout : Json.Layout) : String :=
  (g.document separator).render layout

end DependencyGraph

end ConstGraph
