import ConstGraph.Number.Binary64

/-!
# JSON values

A JSON value keeps an object's fields in the order they are written. A
number without fraction and exponent is an integer of any size; every
other number is a double.
-/

namespace ConstGraph

/-- A JSON value. -/
inductive Json where
  /-- `null`. -/
  | null
  /-- `true` or `false`. -/
  | bool (value : Bool)
  /-- An integer of any size. -/
  | int (value : Int)
  /-- Any other number. -/
  | real (value : Binary64)
  /-- A string. -/
  | str (value : String)
  /-- An array. -/
  | arr (items : List Json)
  /-- An object with its fields in order. -/
  | obj (fields : List (String × Json))
  deriving Repr, Inhabited

namespace Json

/-- The value of a field of an object. Of several fields with one name the
last counts. -/
def get? (j : Json) (key : String) : Option Json :=
  match j with
  | obj fields => fields.reverse.lookup key
  | _ => none

/-- The fields with one more: in the place of the field of that name, or at
the end. -/
def insertField (key : String) (value : Json) : List (String × Json) → List (String × Json)
  | [] => [(key, value)]
  | (k, v) :: rest =>
    if k == key then (k, value) :: rest else (k, v) :: insertField key value rest

/-- The fields with each name once: in the place of its first field, with
the value of its last. -/
def distinctFields (fields : List (String × Json)) : List (String × Json) :=
  fields.foldl (fun fs f => insertField f.1 f.2 fs) []

/-- A list of strings as an array. -/
def strings (xs : List String) : Json := arr (xs.map str)

/-- The string a value is, if it is one. -/
def str? : Json → Option String
  | str s => some s
  | _ => none

/-- The integer a value is, if it is one. -/
def int? : Json → Option Int
  | int n => some n
  | _ => none

/-- The truth value a value is, if it is one. -/
def bool? : Json → Option Bool
  | bool b => some b
  | _ => none

/-- The items of an array, if the value is one. -/
def arr? : Json → Option (List Json)
  | arr xs => some xs
  | _ => none

/-- What a value is made up of: the items of an array, the field names of an
object, the characters of a string. -/
def elements? : Json → Option (List Json)
  | arr xs => some xs
  | obj fs => some (fs.map fun f => str f.1)
  | str s => some (s.toList.map fun c => str (String.singleton c))
  | _ => none

end Json

/-- What can be written as a JSON value. -/
class Storable (α : Type) where
  /-- The value that is written. -/
  toJson : α → Json

instance : Storable String := ⟨Json.str⟩

instance : Storable Int := ⟨Json.int⟩

instance : Storable Json := ⟨id⟩

namespace Json

/-- A list as an array. -/
def ofList {α : Type} [Storable α] (xs : List α) : Json := arr (xs.map Storable.toJson)

end Json

end ConstGraph
