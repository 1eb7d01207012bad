import ConstGraph.Environment
import ConstGraph.Text.Blank
import ConstGraph.Text.Case
import ConstGraph.Text.Newline

/-!
# Variables from a file

A file may assign variables, one a line: a name, an equals sign and a
value, with an optional `export` before them and a remark after a `#`
behind them. A value between quotes may hold anything, escapes included;
any other ends with the line. What is none of this is passed over up to
the end of the line.

In a value `${name}` stands for the value of a variable, and
`${name:-text}` for the text if there is none: a variable that is set,
or else one assigned before in the file. The last assignment of a name
counts, and a variable that is set already keeps its value.
-/

namespace ConstGraph

namespace EnvFile

/-- A blank inside a line. -/
def isSpace (c : Char) : Bool := Text.isBlank c && c != '\n'

/-- The text after the blanks of the line. -/
def skipSpaces (cs : List Char) : List Char := cs.dropWhile isSpace

/-- The text after the end of the line. -/
def nextLine (cs : List Char) : List Char := (cs.dropWhile (· != '\n')).drop 1

/-- The text after an `export` and the blanks behind it. -/
def skipExport (cs : List Char) : List Char :=
  let word := "export".toList
  if word.isPrefixOf cs && (cs.drop word.length).head?.any isSpace then
    skipSpaces (cs.drop word.length)
  else cs

/-- The text up to a closing quote and the text after it. A backslash takes
the next character with it. -/
def untilQuote (mark : Char) : List Char → Option (List Char × List Char)
  | [] => none
  | '\\' :: c :: rest => (untilQuote mark rest).map fun r => ('\\' :: c :: r.1, r.2)
  | c :: rest =>
    if c = mark then some ([], rest) else (untilQuote mark rest).map fun r => (c :: r.1, r.2)

/-- The character an escape stands for, between the given quotes. -/
def escaped? (mark c : Char) : Option Char :=
  if c = '\\' || c = '\'' then some c
  else if mark = '\'' then none
  else match c with
    | '"' => some '"'
    | 'a' => some '\x07'
    | 'b' => some '\x08'
    | 'f' => some '\x0c'
    | 'n' => some '\n'
    | 'r' => some '\r'
    | 't' => some '\t'
    | 'v' => some '\x0b'
    | _ => none

/-- The text between quotes, its escapes replaced. -/
def unescape (mark : Char) : List Char → List Char
  | [] => []
  | '\\' :: c :: rest =>
    match escaped? mark c with
    | some e => e :: unescape mark rest
    | none => '\\' :: unescape mark (c :: rest)
  | c :: rest => c :: unescape mark rest

/-- The text before a remark: a `#` behind a blank starts one. -/
def beforeRemark : List Char → List Char
  | [] => []
  | c :: rest =>
    if Text.isBlank c && (rest.dropWhile Text.isBlank).head? == some '#' then []
    else c :: beforeRemark rest

/-- The value that starts behind an equals sign and the text after it.
Blanks in front of it belong to a remark behind them. -/
def value? (cs : List Char) : Option (List Char × List Char) :=
  match skipSpaces cs with
  | '\'' :: rest => (untilQuote '\'' rest).map fun r => (unescape '\'' r.1, r.2)
  | '"' :: rest => (untilQuote '"' rest).map fun r => (unescape '"' r.1, r.2)
  | _ =>
    some (Text.trimBy Text.isBlank (beforeRemark (cs.takeWhile (· != '\n'))),
      cs.dropWhile (· != '\n'))

/-- A character of a name without quotes. -/
def isNameChar (c : Char) : Bool := c != '=' && c != '#' && !Text.isBlank c

/-- The name at the start of a text and the text after it; a remark has
none. -/
def name? : List Char → Option (Option (List Char) × List Char)
  | '#' :: rest => some (none, '#' :: rest)
  | '\'' :: rest =>
    let name := rest.takeWhile (· != '\'')
    match rest.dropWhile (· != '\'') with
    | _ :: after => if name.isEmpty then none else some (some name, after)
    | [] => none
  | cs =>
    let name := cs.takeWhile isNameChar
    if name.isEmpty then none else some (some name, cs.dropWhile isNameChar)

/-- The text after a remark, blanks and the end of the line, if nothing
else is left on it. -/
def endOfLine? (cs : List Char) : Option (List Char) :=
  let cs := skipSpaces cs
  let cs := if cs.head? == some '#' then cs.dropWhile (· != '\n') else cs
  match cs with
  | [] => some []
  | '\n' :: rest => some rest
  | _ => none

/-- An assignment: a name, and a value if there is one. -/
abbrev Assignment := List Char × Option (List Char)

/-- The assignment of a name and a value, if the line ends behind them, and
the text after the line. -/
def finishLine (name : Option (List Char)) (value : Option (List Char)) (cs : List Char) :
    Option Assignment × List Char :=
  match endOfLine? cs with
  | some rest => (name.map fun n => (n, value), rest)
  | none => (none, nextLine cs)

/-- The assignment at the start of a text, which starts with no blank, and
the text after its line. A name alone assigns nothing. Where the text is no
assignment it is passed over from there to the end of the line. -/
def line (cs : List Char) : Option Assignment × List Char :=
  let cs := skipExport cs
  match name? cs with
  | none => (none, nextLine cs)
  | some (name, cs) =>
    match skipSpaces cs with
    | '=' :: rest =>
      match value? rest with
      | some (value, rest) => finishLine name (some value) rest
      | none => (none, nextLine rest)
    | rest => finishLine name none rest

/-- The assignments of a text, in at most so many lines. -/
def lines : Nat → List Char → List Assignment
  | 0, _ => []
  | fuel + 1, cs =>
    match cs.dropWhile Text.isBlank with
    | [] => []
    | cs => (line cs).1.toList ++ lines fuel (line cs).2

/-- The assignments of a file, in order. A byte order mark at its start is
no part of it. -/
def assignments (text : String) : List (String × Option String) :=
  let cs := Text.unifyLineEnds (Text.dropMark text.toList)
  (lines (cs.length + 1) cs).map fun (name, value) =>
    (String.ofList name, value.map String.ofList)

/-! ## Variables in values -/

/-- A variable in a value: its name, and what stands for it if it is not
set. -/
structure Reference where
  /-- The name. -/
  name : List Char
  /-- The text that stands for it. -/
  otherwise : List Char := []

/-- A character of the name of a variable in a value. -/
def isReferenceChar (c : Char) : Bool := c != '\x7d' && c != ':'

/-- The variable that starts behind a dollar sign, and the text after it. -/
def reference? : List Char → Option (Reference × List Char)
  | '\x7b' :: cs =>
    let name := cs.takeWhile isReferenceChar
    match cs.dropWhile isReferenceChar with
    | '\x7d' :: rest => some (⟨name, []⟩, rest)
    | ':' :: '-' :: rest =>
      match rest.dropWhile (· != '\x7d') with
      | _ :: after => some (⟨name, rest.takeWhile (· != '\x7d')⟩, after)
      | [] => none
    | _ => none
  | _ => none

/-- A value with its variables replaced, of which there are at most so
many characters. -/
def expand (value : Reference → List Char) : Nat → List Char → List Char
  | 0, _ => []
  | _, [] => []
  | fuel + 1, '$' :: cs =>
    match reference? cs with
    | some (r, rest) => value r ++ expand value fuel rest
    | none => '$' :: expand value fuel cs
  | fuel + 1, c :: cs => c :: expand value fuel cs

/-- What a variable stands for: its value if it is set, else what the file
has assigned to it, which may be nothing, else the text given for it. -/
def valueOf (env : Environment) (assigned : List (String × Option String)) (r : Reference) :
    List Char :=
  let name := String.ofList r.name
  match env.get? name, assigned.lookup name with
  | some value, _ => value.toList
  | none, some value => (value.getD "").toList
  | none, none => r.otherwise

/-- The assignments with an assignment of a name: in the place of an earlier
one, or at the end. -/
def insertAssignment (name : String) (value : Option String) :
    List (String × Option String) → List (String × Option String)
  | [] => [(name, value)]
  | (n, v) :: rest =>
    if n == name then (n, value) :: rest else (n, v) :: insertAssignment name value rest

/-- The assignments of a file with the variables in their values replaced,
each name once. -/
def resolved (env : Environment) (assigned : List (String × Option String)) :
    List (String × Option String) → List (String × Option String)
  | [] => assigned
  | (name, value) :: rest =>
    let value := value.map fun v =>
      String.ofList (expand (valueOf env assigned) (v.length + 1) v.toList)
    resolved env (insertAssignment name value assigned) rest

/-! ## Reading a file -/

/-- Set the variables that are not set, one after the other, up to one that
cannot be. -/
def setAll (env : Environment) :
    List (String × Option String) → Environment × Except VariableError Unit
  | [] => (env, .ok ())
  | (_, none) :: rest => setAll env rest
  | (name, some value) :: rest =>
    if (env.get? name).isSome then setAll env rest
    else
      match env.put name value with
      | .ok env => setAll env rest
      | .error e => (env, .error e)

/-- Reading files of variables is switched off. -/
def isDisabled (env : Environment) : Bool :=
  let flag := (Text.lower (env.getD "PYTHON_DOTENV_DISABLED" "")).map fun c =>
    if c = 'ſ' then 's' else c
  ["1", "true", "t", "yes", "y"].contains flag

/-- The environment after a file has been read. -/
def load (text : String) (env : Environment) : Environment × Except VariableError Unit :=
  if isDisabled env then (env, .ok ()) else setAll env (resolved env [] (assignments text))

end EnvFile

end ConstGraph
