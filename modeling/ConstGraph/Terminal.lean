import ConstGraph.Text.Case
import ConstGraph.Text.Width

/-!
# The terminal

A terminal that does not take UTF-8 is given plain ASCII words in place of
the few icons the program prints. Characters that would ring the bell or
move back are never shown, and tabs are shown as blanks.
-/

namespace ConstGraph

/-- What is known of the encoding of the terminal. -/
structure Terminal where
  /-- The encoding of the standard output, if it tells. -/
  output : Option String := some "utf-8"
  /-- The encoding the locale prefers, if it can be found out. -/
  locale : Option String := none
  deriving DecidableEq, Repr

/-- The icons, each with the text that stands for it. -/
def icons : List (Char × String) :=
  [('✓', "[OK]"), ('✗', "[FAIL]"), ('⚠', "[WARN]"), ('→', "->"), ('←', "<-"), ('↻', "(cycle)"),
    ('⇒', "=>"), ('…', "..."), ('•', "*")]

/-- The text that stands for a character on a terminal without icons. -/
def plainChar (c : Char) : List Char :=
  match icons.lookup c with
  | some text => text.toList
  | none => [c]

/-- The text with every icon replaced. -/
def plainText (s : String) : String := String.ofList (s.toList.flatMap plainChar)

namespace Terminal

/-- The encoding of the terminal, in lower case: that of the output if it
is known, else that of the locale, else ASCII. -/
def encoding (t : Terminal) : String :=
  match t.output.filter (· != "") with
  | some e => Text.lower e
  | none =>
    match t.locale with
    | some e => Text.lower e
    | none => "ascii"

/-- The terminal takes UTF-8. -/
def takesUtf8 (t : Terminal) : Bool := ["utf-8", "utf8", "utf_8"].contains t.encoding

/-- The text as it is shown on the terminal. -/
def sanitize (t : Terminal) (s : String) : String := if t.takesUtf8 then s else plainText s

/-- The character is never shown: the bell, and what moves back or up and
down. -/
def isHidden (c : Char) : Bool :=
  c == '\x07' || c == '\x08' || c == '\x0b' || c == '\x0c' || c == '\r'

/-- The text of a line as it is shown. -/
def shownText (s : String) : String :=
  String.ofList (Text.expandTabs {} (s.toList.filter (!isHidden ·)))

/-- What printing several texts puts out: a line with the texts between
blanks. -/
def line (t : Terminal) (texts : List String) : String :=
  shownText (" ".intercalate (texts.map t.sanitize)) ++ "\n"

end Terminal

end ConstGraph
