import ConstGraph.Json.Value

/-!
# Reading JSON

A recursive-descent reader over the characters of a text. Every function
returns what it read together with the characters after it. Strings may
hold no control character; a surrogate without its partner reads as the
replacement character. Besides the numbers of JSON the words `NaN`,
`Infinity` and `-Infinity` are numbers, and an integer has at most
`maxDigits` digits. Arrays and objects nest only so deep.
-/

namespace ConstGraph

namespace Json

/-- Why a text is no JSON value. -/
inductive ReadError where
  /-- The text is not written as JSON. -/
  | malformed
  /-- An integer has more digits than are read. -/
  | tooManyDigits (count : Nat)
  /-- Arrays and objects nest deeper than is read. -/
  | tooDeep
  deriving DecidableEq, Repr

/-- The most digits an integer may have. -/
def maxDigits : Nat := 4300

/-- The number of arrays and objects that may stand in one another. -/
def maxNesting : Nat := 985

/-- A character that may stand between tokens. -/
def isGap (c : Char) : Bool :=
  c == ' ' || c == '\t' || c == '\n' || c == '\r'

/-- The characters from the next token on. -/
def skip (cs : List Char) : List Char := cs.dropWhile isGap

/-- The value of a hexadecimal digit. -/
def hexValue? (c : Char) : Option Nat :=
  if '0' ≤ c ∧ c ≤ '9' then some (c.toNat - 48)
  else if 'a' ≤ c ∧ c ≤ 'f' then some (c.toNat - 87)
  else if 'A' ≤ c ∧ c ≤ 'F' then some (c.toNat - 55)
  else none

/-- The UTF-16 unit four hexadecimal digits stand for. -/
def unit? (a b c d : Char) : Option Nat := do
  return 4096 * (← hexValue? a) + 256 * (← hexValue? b) + 16 * (← hexValue? c) + (← hexValue? d)

/-- The character a letter after a backslash stands for. -/
def shortEscape? : Char → Option Char
  | '"' => some '"'
  | '\\' => some '\\'
  | '/' => some '/'
  | 'b' => some '\x08'
  | 'f' => some '\x0c'
  | 'n' => some '\n'
  | 'r' => some '\r'
  | 't' => some '\t'
  | _ => none

/-- A unit that starts a surrogate pair. -/
def isHighUnit (n : Nat) : Bool := 0xd800 ≤ n && n < 0xdc00

/-- A unit that ends a surrogate pair. -/
def isLowUnit (n : Nat) : Bool := 0xdc00 ≤ n && n < 0xe000

/-- The character of a single unit. -/
def unitChar (n : Nat) : Char :=
  if isHighUnit n || isLowUnit n then '\ufffd' else Char.ofNat n

/-- The character of a surrogate pair. -/
def pairChar (high low : Nat) : Char :=
  Char.ofNat (0x10000 + (high - 0xd800) * 1024 + (low - 0xdc00))

/-- A piece of a string: a character, or a UTF-16 unit given by its digits. -/
inductive Piece where
  /-- A character as written, or by a short escape. -/
  | plain (c : Char)
  /-- A UTF-16 unit. -/
  | unit (n : Nat)
  deriving DecidableEq, Repr

/-- The characters of the pieces, surrogate pairs joined. -/
def assemble : List Piece → List Char
  | [] => []
  | .plain c :: rest => c :: assemble rest
  | .unit high :: .unit low :: rest =>
    if isHighUnit high && isLowUnit low then pairChar high low :: assemble rest
    else unitChar high :: assemble (.unit low :: rest)
  | .unit n :: rest => unitChar n :: assemble rest

/-- The rest of a string after its opening quote, the pieces read so far
in reverse. -/
def stringBody (acc : List Piece) : List Char → Except ReadError (String × List Char)
  | [] => .error .malformed
  | '"' :: rest => .ok (String.ofList (assemble acc.reverse), rest)
  | '\\' :: 'u' :: a :: b :: c :: d :: rest =>
    match unit? a b c d with
    | none => .error .malformed
    | some n => stringBody (.unit n :: acc) rest
  | '\\' :: e :: rest =>
    match shortEscape? e with
    | none => .error .malformed
    | some c => stringBody (.plain c :: acc) rest
  | c :: rest =>
    if c.toNat < 0x20 || c == '\\' then .error .malformed else stringBody (.plain c :: acc) rest

/-- A decimal digit. -/
def isDigit (c : Char) : Bool := '0' ≤ c && c ≤ '9'

/-- The number a run of digits stands for. -/
def digitsValue (ds : List Char) : Nat :=
  ds.foldl (fun n d => 10 * n + (d.toNat - 48)) 0

/-- The digits of a fraction, if there is one. -/
def fraction : List Char → List Char × List Char
  | '.' :: rest =>
    let ds := rest.takeWhile isDigit
    if ds.isEmpty then ([], '.' :: rest) else (ds, rest.dropWhile isDigit)
  | cs => ([], cs)

/-- The exponent of a number, if there is one. -/
def exponent : List Char → Option Int × List Char
  | e :: rest =>
    if e == 'e' || e == 'E' then
      let sign := match rest with
        | '+' :: _ => ['+']
        | '-' :: _ => ['-']
        | _ => []
      let after := rest.drop sign.length
      let ds := after.takeWhile isDigit
      let n : Int := digitsValue ds
      if ds.isEmpty then (none, e :: rest)
      else (some (if sign == ['-'] then -n else n), after.dropWhile isDigit)
    else (none, e :: rest)
  | [] => (none, [])

/-- The digits a number starts with. A zero in front stands alone. -/
def leadingDigits : List Char → List Char
  | '0' :: _ => ['0']
  | cs => cs.takeWhile isDigit

/-- A number after its sign. -/
def unsigned (negative : Bool) (cs : List Char) : Except ReadError (Json × List Char) :=
  let ds := leadingDigits cs
  if ds.isEmpty then .error .malformed
  else
    let (f, rest) := fraction (cs.drop ds.length)
    let (e, rest) := exponent rest
    if f.isEmpty && e.isNone then
      if maxDigits < ds.length then .error (.tooManyDigits ds.length)
      else
        let n : Int := digitsValue ds
        .ok (int (if negative then -n else n), rest)
    else
      .ok (real (.ofDecimal negative (digitsValue (ds ++ f)) (e.getD 0 - f.length)), rest)

/-- The characters after a word, if the text starts with it. -/
def expect? : List Char → List Char → Option (List Char)
  | [], cs => some cs
  | _ :: _, [] => none
  | w :: ws, c :: cs => if w == c then expect? ws cs else none

/-- The words that stand for a value. -/
def words : List (List Char × Json) :=
  [("null".toList, null), ("true".toList, bool true), ("false".toList, bool false),
    ("NaN".toList, real .notANumber), ("Infinity".toList, real (.infinite false)),
    ("-Infinity".toList, real (.infinite true))]

/-- One of the fixed words, or else a number. -/
def scalar (cs : List Char) : Except ReadError (Json × List Char) :=
  match words.findSome? fun w => (expect? w.1 cs).map fun rest => (w.2, rest) with
  | some read => .ok read
  | none =>
    match cs with
    | '-' :: rest => unsigned true rest
    | _ => unsigned false cs

mutual

/-- A value that nests at most `depth` deep. Each step of the descent uses
one unit of fuel. -/
def value : Nat → Nat → List Char → Except ReadError (Json × List Char)
  | 0, _, _ => .error .malformed
  | fuel + 1, depth, cs =>
    match cs with
    | '"' :: rest => do
      let (s, rest) ← stringBody [] rest
      return (str s, rest)
    | '[' :: rest =>
      if depth = 0 then .error .tooDeep
      else
        match skip rest with
        | ']' :: rest => .ok (arr [], rest)
        | rest => items fuel (depth - 1) [] rest
    | '\x7b' :: rest =>
      if depth = 0 then .error .tooDeep
      else
        match skip rest with
        | '\x7d' :: rest => .ok (obj [], rest)
        | rest => fields fuel (depth - 1) [] rest
    | cs => scalar cs

/-- The items of an array from the next item on, those read so far in
reverse. -/
def items : Nat → Nat → List Json → List Char → Except ReadError (Json × List Char)
  | 0, _, _, _ => .error .malformed
  | fuel + 1, depth, acc, cs => do
    let (x, rest) ← value fuel depth cs
    match skip rest with
    | ']' :: rest => return (arr (x :: acc).reverse, rest)
    | ',' :: rest => items fuel depth (x :: acc) (skip rest)
    | _ => .error .malformed

/-- The fields of an object from the next field on, those read so far in
reverse. -/
def fields : Nat → Nat → List (String × Json) → List Char → Except ReadError (Json × List Char)
  | 0, _, _, _ => .error .malformed
  | fuel + 1, depth, acc, cs =>
    match cs with
    | '"' :: rest => do
      let (key, rest) ← stringBody [] rest
      match skip rest with
      | ':' :: rest => do
        let (x, rest) ← value fuel depth (skip rest)
        match skip rest with
        | '\x7d' :: rest => return (obj (distinctFields ((key, x) :: acc).reverse), rest)
        | ',' :: rest => fields fuel depth ((key, x) :: acc) (skip rest)
        | _ => .error .malformed
      | _ => .error .malformed
    | _ => .error .malformed

end

/-- The value a text holds, if it nests at most `nesting` deep. A character
takes two steps of the descent at most, so the fuel never runs out. -/
def parse (text : String) (nesting : Nat := maxNesting) : Except ReadError Json := do
  let cs := text.toList
  let (j, rest) ← value (2 * cs.length + 1) nesting (skip cs)
  if (skip rest).isEmpty then return j else .error .malformed

end Json

end ConstGraph
