import ConstGraph.Concrete.Conversion
import ConstGraph.Log
import ConstGraph.Walk.Run

/-!
# The analysis of one file

A file is analysed by refusing a faulty tree, converting it and walking
the result. A file that is not admitted, does not parse or is nested too
deeply contributes nothing and is noted as skipped.

`FileAnalysis` remembers the last outcome: `parse` reads the file itself
and always says whether it was skipped; `parseSource` is handed a tree and
fails where that cannot be analysed.
-/

namespace ConstGraph

/-- The size in bytes up to which files are read. -/
structure SizeLimit where
  /-- The largest size. -/
  bytes : Int
  /-- Some file is admitted. -/
  pos : 0 < bytes
  deriving DecidableEq, Repr

/-- Why a size limit is refused. -/
inductive LimitError where
  /-- No file could be read. -/
  | notPositive (bytes : Int)
  deriving DecidableEq, Repr

/-- The text of a size limit error. -/
def LimitError.message : LimitError → String
  | notPositive bytes => s!"file_size_limit must be positive, got {bytes}"

namespace SizeLimit

/-- Two mebibytes. -/
def standard : SizeLimit := ⟨2097152, by decide⟩

/-- The limit of some bytes. -/
def ofInt (bytes : Int) : Except LimitError SizeLimit :=
  if h : 0 < bytes then .ok ⟨bytes, h⟩ else .error (.notPositive bytes)

end SizeLimit

/-- A tree the grammar failed on, by file and line. -/
structure ParseError where
  /-- The file. -/
  file : String
  /-- The line of the first faulty node. -/
  line : Int
  deriving DecidableEq, Repr

namespace ParseError

/-- The line of the error is too long to be written. -/
def isUnwritable (e : ParseError) : Bool := isOverlong e.line

/-- The text of a parse error, unless it cannot be written. -/
def message (e : ParseError) : String :=
  if e.isUnwritable then overlongMessage else s!"Syntax error in {e.file} near line {e.line}"

end ParseError

/-- The tree of a file, unless the grammar failed on it. -/
def ConcreteNode.checked (root : ConcreteNode) (file : String) : Except ParseError ConcreteNode :=
  if root.preorder.any isFaulty then .error ⟨file, root.firstFaultLine⟩ else .ok root

/-- Why a tree is not analysed. -/
inductive AnalysisError where
  /-- The grammar failed. -/
  | parse (e : ParseError)
  /-- The tree is not converted. -/
  | conversion (e : ConversionError)
  deriving DecidableEq, Repr

/-- The text of an analysis error. -/
def AnalysisError.message : AnalysisError → String
  | parse e => e.message
  | conversion (.span e) => e.message
  | conversion .tooDeep => ""

/-- What is found when a file is read. -/
inductive Source where
  /-- The file is not admitted, or cannot be read. -/
  | inadmissible
  /-- The tree of its content. -/
  | tree (root : ConcreteNode)
  deriving Repr, Inhabited

/-- Why a file is skipped. -/
inductive SkipReason where
  /-- It is not admitted, or cannot be read. -/
  | inadmissible
  /-- The grammar failed. -/
  | unparsable (e : ParseError)
  /-- It is nested too deeply. -/
  | tooDeep
  deriving DecidableEq, Repr

/-- What the log says of a skipped file. -/
def SkipReason.record (file : String) : SkipReason → LogRecord
  | inadmissible =>
    ⟨LogLevel.debug, "rubymap.analyzer.file_analyzer",
      s!"Skipping {file}: not an admissible, readable file"⟩
  | unparsable e =>
    ⟨LogLevel.warning, "rubymap.analyzer.file_analyzer",
      s!"Syntax error in {e.file} (line {e.line}), skipping"⟩
  | tooDeep =>
    ⟨LogLevel.warning, "rubymap.analyzer.file_analyzer", s!"Nesting too deep in {file}, skipping"⟩

/-- The analysis of a file and its last outcome. -/
structure FileAnalysis where
  /-- The file, by its full path. -/
  file : String
  /-- The types local assignments bind. -/
  infer : Inference := .none
  /-- What was found. -/
  result : WalkResult := .empty
  /-- The file contributed nothing. -/
  skipped : Bool := false

namespace FileAnalysis

/-- What is found in a tree. -/
def walkTree (a : FileAnalysis) (root : ConcreteNode) : Except ConversionError WalkResult :=
  root.toSyntax.map fun t => (Walker.mk a.file a.infer).walk t {}

/-- The analysis of a skipped file. -/
def skip (a : FileAnalysis) : FileAnalysis := { a with result := .empty, skipped := true }

/-- The analysis of a file that was walked. -/
def keep (a : FileAnalysis) (result : WalkResult) : FileAnalysis :=
  { a with result := result, skipped := false }

/-- Analyse the file as it is read, and say why it was skipped if it was.
A tree with a reversed span, or with a fault on a line too long to be
written, is a failure and leaves the last outcome. -/
def parse (a : FileAnalysis) : Source → FileAnalysis × Except AnalysisError (Option SkipReason)
  | .inadmissible => (a.skip, .ok (some .inadmissible))
  | .tree root =>
    match root.checked a.file with
    | .error e =>
      if e.isUnwritable then (a, .error (.parse e)) else (a.skip, .ok (some (.unparsable e)))
    | .ok root =>
      match a.walkTree root with
      | .ok result => (a.keep result, .ok none)
      | .error .tooDeep => (a.skip, .ok (some .tooDeep))
      | .error (.span e) => (a, .error (.conversion (.span e)))

/-- Analyse a tree as if it were that of the file. -/
def parseSource (a : FileAnalysis) (root : ConcreteNode) :
    FileAnalysis × Except AnalysisError Unit :=
  match root.checked a.file with
  | .error e => (a, .error (.parse e))
  | .ok root =>
    match a.walkTree root with
    | .ok result => ({ a with result := result }, .ok ())
    | .error e => (a, .error (.conversion e))

end FileAnalysis

end ConstGraph
