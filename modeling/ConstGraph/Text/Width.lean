import ConstGraph.Text.WidthTable

/-!
# Columns

How many columns of a screen a text takes. A character takes two if it is a
wide letter or picture, none if it is a mark on another character, and one
otherwise. A joiner makes one picture of its neighbours, so the character
behind it takes no column. A selector turns the character in front of it
into a picture, which may take one column more.

A tab is a blank and as many more as lead to a multiple of `tabSize`.
-/

namespace ConstGraph.Text

/-- The number of columns a character takes by itself. -/
def columns (c : Char) : Nat :=
  if zeroWidthTable.contains c then 0 else if wideTable.contains c then 2 else 1

/-- The character that joins its neighbours. -/
def joiner : Char := '\u200d'

/-- The character that makes a picture of the one in front of it. -/
def pictureSelector : Char := '\ufe0f'

/-- How far a line is measured. -/
structure Ruler where
  /-- The column the next character stands in. -/
  column : Nat := 0
  /-- The last character that took a column and is not yet a picture. -/
  last : Option Char := none
  /-- The next character is joined to what is there. -/
  joined : Bool := false
  deriving DecidableEq, Repr

namespace Ruler

/-- Measure one more character. -/
def step (r : Ruler) (c : Char) : Ruler :=
  if r.joined then { r with joined := false }
  else if c = joiner then { r with joined := true }
  else if c = pictureSelector then
    { column := r.column + if r.last.any (pictureTable.contains ·) then 1 else 0 }
  else if columns c = 0 then r
  else { column := r.column + columns c, last := some c }

end Ruler

/-- The distance of two tab stops. -/
def tabSize : Nat := 8

/-- The number of columns from a column to the next tab stop; none if one is
there. -/
def toTabStop (column : Nat) : Nat := (tabSize - column % tabSize) % tabSize

/-- The text with its tabs as blanks, where `r` measures what stands before
it in the line. Neither joiners nor selectors reach beyond a tab or a line
end. -/
def expandTabs (r : Ruler) : List Char → List Char
  | [] => []
  | '\n' :: rest => '\n' :: expandTabs {} rest
  | '\t' :: rest =>
    let column := (r.step ' ').column
    let more := toTabStop column
    ' ' :: (List.replicate more ' ' ++ expandTabs { column := column + more } rest)
  | c :: rest => c :: expandTabs (r.step c) rest

end ConstGraph.Text
