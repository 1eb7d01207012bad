import ConstGraph.Json.Value
import ConstGraph.Number.Digits
import ConstGraph.Text.Quoted

/-!
# Values in messages

How a value shows in a message: a text as it is, and everything else by
the words and brackets of `describe`. A value with an integer that is too
long to be written is not shown.
-/

namespace ConstGraph

namespace Json

mutual

/-- A value inside another, as messages show it. -/
def describe : Json → String
  | null => "None"
  | bool true => "True"
  | bool false => "False"
  | int n => toString n
  | real x => x.textWith "inf" "nan"
  | str s => Text.quoted s
  | arr xs => "[" ++ ", ".intercalate (describeItems xs) ++ "]"
  | obj fs => "\x7b" ++ ", ".intercalate (describeFields fs) ++ "\x7d"

/-- Items as messages show them. -/
def describeItems : List Json → List String
  | [] => []
  | x :: xs => x.describe :: describeItems xs

/-- Fields as messages show them. -/
def describeFields : List (String × Json) → List String
  | [] => []
  | (k, x) :: fs => (Text.quoted k ++ ": " ++ x.describe) :: describeFields fs

end

/-- A value on its own, as messages show it. -/
def text : Json → String
  | str s => s
  | j => j.describe

/-- A value that counts as nothing. -/
def isBlank : Json → Bool
  | null => true
  | bool b => !b
  | int n => n == 0
  | real (.finite _ m _) => m == 0
  | real _ => false
  | str s => s.isEmpty
  | arr xs => xs.isEmpty
  | obj fs => fs.isEmpty

/-- The sort of a value, as messages name it. -/
def sort : Json → String
  | null => "NoneType"
  | bool _ => "bool"
  | int _ => "int"
  | real _ => "float"
  | str _ => "str"
  | arr _ => "list"
  | obj _ => "dict"

/-! ## Long integers -/

mutual

/-- No integer in a value has too many digits. -/
def isWritable : Json → Bool
  | int n => !isOverlong n
  | arr xs => areWritable xs
  | obj fs => fieldsWritable fs
  | _ => true

/-- No integer in the items has too many digits. -/
def areWritable : List Json → Bool
  | [] => true
  | x :: xs => x.isWritable && areWritable xs

/-- No integer in the fields has too many digits. -/
def fieldsWritable : List (String × Json) → Bool
  | [] => true
  | (_, x) :: fs => x.isWritable && fieldsWritable fs

end

end Json

/-- The text of an item, as messages show it. -/
def Storable.text {α : Type} [Storable α] (a : α) : String := (toJson a).text

end ConstGraph
