import ConstGraph.Text.Range

/-!
# Blanks

The characters that count as white space, and text without the blanks at
its ends. Four separators of the ASCII range (U+001C to U+001F) are blank
in text but not around a number.
-/

namespace ConstGraph.Text

/-- The blank characters. -/
def blankTable : RangeTable :=
  [(0x9, 0xd), (0x1c, 0x20), (0x85, 0x85), (0xa0, 0xa0), (0x1680, 0x1680), (0x2000, 0x200a),
    (0x2028, 0x2029), (0x202f, 0x202f), (0x205f, 0x205f), (0x3000, 0x3000)]

/-- The character is blank. -/
def isBlank (c : Char) : Bool := blankTable.contains c

/-- The character is blank around a number. -/
def isNumberBlank (c : Char) : Bool :=
  isBlank c && !(0x1c ≤ c.toNat && c.toNat ≤ 0x1f)

/-- The characters without those of a class at either end. -/
def trimBy (drop : Char → Bool) (cs : List Char) : List Char :=
  ((cs.dropWhile drop).reverse.dropWhile drop).reverse

/-- The text without the blanks at its ends. -/
def strip (s : String) : String := String.ofList (trimBy isBlank s.toList)

end ConstGraph.Text
