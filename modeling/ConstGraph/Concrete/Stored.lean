import ConstGraph.Concrete.Node
import ConstGraph.Json.Value

/-!
# Concrete trees as JSON

A node is an object with its `type`, the `field` it fills, whether it is
`named` or `missing`, its `rows`, its `text` and its `children`. What is
left out has the value it mostly has.
-/

namespace ConstGraph

namespace ConcreteNode

mutual

/-- The node a value stands for. -/
def ofJson : Json → ConcreteNode
  | .obj fields => ofFields fields
  | _ => { type := "" }

/-- The node some fields stand for. -/
def ofFields : List (String × Json) → ConcreteNode
  | [] => { type := "" }
  | (key, value) :: rest =>
    let n := ofFields rest
    match key, value with
    | "type", .str s => { n with type := s }
    | "field", .str s => { n with field := some s }
    | "named", .bool b => { n with named := b }
    | "missing", .bool b => { n with missing := b }
    | "rows", .arr [.int first, .int last] => { n with startRow := first, endRow := last }
    | "text", .str s => { n with bytes := Text.Utf8.encode s }
    | "children", .arr items => { n with children := ofItems items }
    | _, _ => n

/-- The nodes some values stand for. -/
def ofItems : List Json → List ConcreteNode
  | [] => []
  | j :: js => ofJson j :: ofItems js

end

end ConcreteNode

end ConstGraph
