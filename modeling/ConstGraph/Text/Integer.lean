import ConstGraph.Text.Blank
import ConstGraph.Text.Digit

/-!
# Integers as text

An integer is read from an optional sign and decimal digits of any script,
with single underscores between digits and blanks around the whole. More
than `maxIntegerDigits` digits are refused.

A plain integer has ASCII digits only. It may have zeros in front, behind
its sign, and a fraction of zeros behind.
-/

namespace ConstGraph.Text

/-- The most digits an integer may have. -/
def maxIntegerDigits : Nat := 4300

/-- The values of digits with single underscores between them. `after`
says whether a digit stands right before. -/
def digitRun? (after : Bool) : List Char → Option (List Nat)
  | [] => if after then some [] else none
  | '_' :: rest => if after then digitRun? false rest else none
  | c :: rest => do
    let d ← digitValue? c
    let ds ← digitRun? true rest
    return d :: ds

/-- The natural number a run of digits stands for. -/
def natOfDigits? (cs : List Char) : Option Nat := do
  let ds ← digitRun? false cs
  if maxIntegerDigits < ds.length then none
  else some (ds.foldl (fun n d => 10 * n + d) 0)

/-- The integer a text stands for. -/
def integer? (s : String) : Option Int :=
  match trimBy isNumberBlank s.toList with
  | '-' :: rest => (natOfDigits? rest).map fun n => -(n : Int)
  | '+' :: rest => (natOfDigits? rest).map Int.ofNat
  | cs => (natOfDigits? cs).map Int.ofNat

/-! ## Plain integers -/

/-- The text after zeros and underscores, the last of which is given. What
follows is a digit, or a fraction, which keeps the last of them before it;
at the end of the text that is left alone. -/
def afterZeros (last : Char) : List Char → Option (List Char)
  | [] => some [last]
  | '0' :: rest => afterZeros '0' rest
  | '_' :: rest => afterZeros '_' rest
  | '.' :: rest => some (last :: '.' :: rest)
  | c :: rest => if '1' ≤ c ∧ c ≤ '9' then some (c :: rest) else none

/-- The text without the zeros in front; none if it does not start with a
digit. -/
def dropZeros : List Char → Option (List Char)
  | '0' :: rest => afterZeros '0' rest
  | c :: rest => if '1' ≤ c ∧ c ≤ '9' then some (c :: rest) else none
  | [] => none

/-- The text without a fraction of zeros; none if the fraction is another. -/
def dropFraction (cs : List Char) : Option (List Char) :=
  match cs.dropWhile (· != '.') with
  | [] => some cs
  | _ :: zeros =>
    if !zeros.isEmpty && zeros.all (· == '0') then some (cs.takeWhile (· != '.')) else none

/-- Two underscores stand side by side. -/
def hasTwoUnderscores : List Char → Bool
  | '_' :: '_' :: _ => true
  | _ :: rest => hasTwoUnderscores rest
  | [] => false

/-- The text without underscores, if they are single ones and inside. -/
def dropUnderscores (cs : List Char) : List Char :=
  if cs.head? == some '_' || cs.getLast? == some '_' || hasTwoUnderscores cs then cs
  else cs.filter (· != '_')

/-- The natural number ASCII digits stand for. -/
def natOfAscii? (cs : List Char) : Option Nat :=
  if cs.isEmpty || !cs.all Char.isDigit || maxIntegerDigits < cs.length then none
  else some (cs.foldl (fun n d => 10 * n + (d.toNat - 48)) 0)

/-- The natural number a text without a sign stands for. -/
def plainNat? (cs : List Char) : Option Nat := do
  natOfAscii? (dropUnderscores (← dropFraction (← dropZeros cs)))

/-- The text after a plus sign, which no minus sign may follow. -/
def dropPlus : List Char → Option (List Char)
  | '+' :: '-' :: _ => none
  | '+' :: rest => some rest
  | cs => some cs

/-- The plain integer a text stands for. -/
def plainInteger? (s : String) : Option Int := do
  match ← dropPlus (trimBy isNumberBlank s.toList) with
  | '-' :: rest => (plainNat? rest).map fun n => -(n : Int)
  | rest => (plainNat? rest).map Int.ofNat

end ConstGraph.Text
