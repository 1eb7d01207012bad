/-!
# Text of files

Text is read with every line end, be it a carriage return, a line feed or
both, as one line feed. A byte order mark at its start may be left out.
-/

namespace ConstGraph.Text

/-- The text with every line end as a line feed. -/
def unifyLineEnds : List Char → List Char
  | [] => []
  | '\r' :: '\n' :: rest => '\n' :: unifyLineEnds rest
  | '\r' :: rest => '\n' :: unifyLineEnds rest
  | c :: rest => c :: unifyLineEnds rest

/-- The text without a byte order mark at its start. -/
def dropMark : List Char → List Char
  | '\ufeff' :: rest => rest
  | cs => cs

end ConstGraph.Text
