import ConstGraph.Text.Blank
import ConstGraph.Text.Digit
import ConstGraph.Text.Newline
import ConstGraph.Text.Quoted
import ConstGraph.Text.Utf8

/-!
# One version in three files

The version of a project is kept in a file of its own and copied into the
project file and into the settings module: there a version stands between
quotes behind `version = ` at the start of a line, of which the first is
replaced, here behind `__version__ = `, of which every one is.
-/

namespace ConstGraph

namespace VersionSync

/-- The files a version stands in, as bytes. -/
structure Files where
  /-- The version itself. -/
  version : Option (List UInt8)
  /-- The project file. -/
  project : Option (List UInt8)
  /-- The settings module. -/
  settings : Option (List UInt8)

/-- Why a synchronisation stops. -/
inductive Failure where
  /-- A file is missing. -/
  | missing
  /-- A file is not UTF-8. -/
  | undecodable
  /-- The version is no version. -/
  | invalid (version raw : String)
  deriving DecidableEq, Repr

/-- The text of a failure. -/
def Failure.message : Failure → String
  | missing => ""
  | undecodable => ""
  | invalid version raw =>
    s!"Invalid version format detected: '{version}' (raw: {Text.quoted raw})\n" ++
      "Expected semantic version format: X.Y.Z (e.g., 1.2.0)"

/-! ## Reading the version -/

/-- The text after one digit or more. -/
def afterDigits? (cs : List Char) : Option (List Char) :=
  if (cs.takeWhile Text.isDecimal).isEmpty then none else some (cs.dropWhile Text.isDecimal)

/-- The text after one digit or more and a dot. -/
def afterNumber? (cs : List Char) : Option (List Char) :=
  match afterDigits? cs with
  | some ('.' :: rest) => some rest
  | _ => none

/-- Three numbers with dots between them. -/
def isVersion (cs : List Char) : Bool :=
  ((afterNumber? cs).bind afterNumber?).bind afterDigits? == some []

/-- The bytes of the byte order mark. -/
def markBytes : List UInt8 := [0xef, 0xbb, 0xbf]

/-- The text of the version file: UTF-8 without its byte order mark, or
else one character a byte. What breaks off inside the mark is empty. -/
def decodeVersion (bytes : List UInt8) : List Char :=
  if bytes.isPrefixOf markBytes then []
  else
    let chars := match Text.Utf8.decode? bytes with
      | some s => Text.dropMark s.toList
      | none => bytes.map fun b => Char.ofNat b.toNat
    Text.unifyLineEnds chars

/-- The text without blanks and null characters around it. -/
def clean (cs : List Char) : List Char :=
  Text.trimBy Text.isBlank (Text.trimBy (· == '\x00') (Text.trimBy Text.isBlank cs))

/-- The version in a version file. -/
def readVersion (file : Option (List UInt8)) : Except Failure String :=
  match file with
  | none => .error .missing
  | some bytes =>
    let raw := decodeVersion bytes
    let version := clean raw
    if isVersion version then .ok (String.ofList version)
    else .error (.invalid (String.ofList version) (String.ofList raw))

/-! ## Replacing versions -/

/-- A character of a version. -/
def isVersionChar (c : Char) : Bool := Text.isDecimal c || c == '.'

/-- The length of a version between quotes at the start of a text, with the
quotes, which are among `marks`. -/
def quotedVersion? (marks : List Char) : List Char → Option Nat
  | [] => none
  | mark :: rest =>
    let run := rest.takeWhile isVersionChar
    if marks.contains mark && !run.isEmpty &&
        (rest.dropWhile isVersionChar).head?.any marks.contains
    then some (run.length + 2) else none

/-- The length of an assigned version at the start of a text. -/
def assignedVersion? (key marks cs : List Char) : Option Nat :=
  if key.isPrefixOf cs then
    (quotedVersion? marks (cs.drop key.length)).map (key.length + ·)
  else none

/-- The text with every assigned version replaced, leaving out the first
`skip` characters, which have been replaced already. -/
def replaceAll (key marks replacement : List Char) : Nat → List Char → List Char
  | _, [] => []
  | skip + 1, _ :: rest => replaceAll key marks replacement skip rest
  | 0, c :: rest =>
    match assignedVersion? key marks (c :: rest) with
    | some n => replacement ++ replaceAll key marks replacement (n - 1) rest
    | none => c :: replaceAll key marks replacement 0 rest

/-- The text with the first version assigned at the start of a line
replaced. `atStart` says whether a line starts here. -/
def replaceFirst (key marks replacement : List Char) (atStart : Bool) : List Char → List Char
  | [] => []
  | c :: rest =>
    match if atStart then assignedVersion? key marks (c :: rest) else none with
    | some n => replacement ++ (c :: rest).drop n
    | none => c :: replaceFirst key marks replacement (c == '\n') rest

/-- An assignment of a version. -/
def assigned (key : List Char) (version : String) : List Char :=
  key ++ '"' :: version.toList ++ ['"']

/-- The key of the version in the project file. -/
def projectKey : List Char := "version = ".toList

/-- The key of the version in the settings module. -/
def settingsKey : List Char := "__version__ = ".toList

/-- The project file with a version. -/
def updateProject (version : String) (cs : List Char) : List Char :=
  replaceFirst projectKey ['"'] (assigned projectKey version) true cs

/-- The settings module with a version. -/
def updateSettings (version : String) (cs : List Char) : List Char :=
  replaceAll settingsKey ['"', '\''] (assigned settingsKey version) 0 cs

/-- A file edited as text. -/
def edit (update : List Char → List Char) (file : Option (List UInt8)) :
    Except Failure (List UInt8) :=
  match file with
  | none => .error .missing
  | some bytes =>
    match Text.Utf8.decode? bytes with
    | none => .error .undecodable
    | some s => .ok (Text.Utf8.encode (String.ofList (update (Text.unifyLineEnds s.toList))))

/-! ## The run -/

/-- What a run leaves: the files, the lines it printed, and why it stopped
if it did. -/
structure Outcome where
  /-- The files afterwards. -/
  files : Files
  /-- The lines printed. -/
  printed : List String
  /-- Why it stopped. -/
  failure : Option Failure

/-- The line that closes a heading. -/
def rule : String := String.ofList (List.replicate 60 '=')

/-- Copy the version into the other files, the project file first. -/
def run (files : Files) : Outcome :=
  match readVersion files.version with
  | .error e => ⟨files, [], some e⟩
  | .ok v =>
    let heading := [s!"Version Conductor: Synchronizing to v{v}", rule]
    match edit (updateProject v) files.project with
    | .error e => ⟨files, heading, some e⟩
    | .ok project =>
      let files := { files with project := some project }
      let printed := heading ++ [s!"[OK] Updated pyproject.toml to v{v}"]
      match edit (updateSettings v) files.settings with
      | .error e => ⟨files, printed, some e⟩
      | .ok settings =>
        ⟨{ files with settings := some settings },
          printed ++ [s!"[OK] Updated rubymap/config.py to v{v}", rule,
            s!"[OK] All files synchronized to v{v}"], none⟩

end VersionSync

end ConstGraph
