import ConstGraph.Json.Value

/-!
# Writing JSON

The written form is ASCII only: every character outside the printable
ASCII range is written by its UTF-16 units as `\uXXXX`. A layout either
keeps everything on one line, or puts each item on a line of its own.
-/

namespace ConstGraph

namespace Json

/-- How items are laid out: on one line, or each on its own line with so
many spaces a level. -/
structure Layout where
  /-- The spaces a level, or none for one line. -/
  indent : Option Nat
  deriving DecidableEq, Repr

namespace Layout

/-- Everything on one line. -/
def oneLine : Layout := ⟨none⟩

/-- The layout for a number of spaces a level; below zero there are none. -/
def ofIndent (indent : Option Int) : Layout := ⟨indent.map Int.toNat⟩

/-- What stands between a bracket and an item at a depth. -/
def gap (l : Layout) (depth : Nat) : List Char :=
  match l.indent with
  | none => []
  | some n => '\n' :: List.replicate (n * depth) ' '

/-- What stands between two items at a depth. -/
def separator (l : Layout) (depth : Nat) : List Char :=
  match l.indent with
  | none => [',', ' ']
  | some _ => ',' :: l.gap depth

end Layout

/-! ## Strings -/

/-- A hexadecimal digit, in lower case. -/
def hexDigit (n : Nat) : Char :=
  if n < 10 then Char.ofNat (48 + n) else Char.ofNat (87 + n)

/-- A UTF-16 unit as an escape. -/
def unitEscape (n : Nat) : List Char :=
  ['\\', 'u', hexDigit (n / 4096 % 16), hexDigit (n / 256 % 16), hexDigit (n / 16 % 16),
    hexDigit (n % 16)]

/-- A character inside a string. -/
def escape (c : Char) : List Char :=
  if c = '"' then ['\\', '"']
  else if c = '\\' then ['\\', '\\']
  else if c = '\n' then ['\\', 'n']
  else if c = '\r' then ['\\', 'r']
  else if c = '\t' then ['\\', 't']
  else if c = '\x08' then ['\\', 'b']
  else if c = '\x0c' then ['\\', 'f']
  else if 0x20 ≤ c.toNat ∧ c.toNat ≤ 0x7e then [c]
  else if c.toNat < 0x10000 then unitEscape c.toNat
  else
    let n := c.toNat - 0x10000
    unitEscape (0xd800 + n / 1024) ++ unitEscape (0xdc00 + n % 1024)

/-- A string with its quotes. -/
def quote (s : List Char) : List Char :=
  '"' :: (s.flatMap escape ++ ['"'])

/-! ## Values -/

/-- A number that is no integer. -/
def realChars (x : Binary64) : List Char := (x.textWith "Infinity" "NaN").toList

mutual

/-- A value written at a depth, in front of what follows it. -/
def write (l : Layout) (depth : Nat) : Json → List Char → List Char
  | null, rest => 'n' :: 'u' :: 'l' :: 'l' :: rest
  | bool true, rest => 't' :: 'r' :: 'u' :: 'e' :: rest
  | bool false, rest => 'f' :: 'a' :: 'l' :: 's' :: 'e' :: rest
  | int n, rest => (toString n).toList ++ rest
  | real x, rest => realChars x ++ rest
  | str s, rest => quote s.toList ++ rest
  | arr [], rest => '[' :: ']' :: rest
  | arr (x :: xs), rest =>
    '[' :: (l.gap (depth + 1) ++
      write l (depth + 1) x (writeItems l (depth + 1) xs (l.gap depth ++ ']' :: rest)))
  | obj [], rest => '\x7b' :: '\x7d' :: rest
  | obj ((key, x) :: fs), rest =>
    '\x7b' :: (l.gap (depth + 1) ++ (quote key.toList ++ ':' :: ' ' ::
      write l (depth + 1) x (writeFields l (depth + 1) fs (l.gap depth ++ '\x7d' :: rest))))

/-- Items after another, written at a depth in front of what follows. -/
def writeItems (l : Layout) (depth : Nat) : List Json → List Char → List Char
  | [], rest => rest
  | x :: xs, rest => l.separator depth ++ write l depth x (writeItems l depth xs rest)

/-- Fields after another, written at a depth in front of what follows. -/
def writeFields (l : Layout) (depth : Nat) : List (String × Json) → List Char → List Char
  | [], rest => rest
  | (key, x) :: fs, rest =>
    l.separator depth ++ (quote key.toList ++ ':' :: ' ' ::
      write l depth x (writeFields l depth fs rest))

end

/-- A value as text. -/
def render (l : Layout) (j : Json) : String :=
  String.ofList (write l 0 j [])

end Json

end ConstGraph
