import ConstGraph.Analysis
import ConstGraph.Cache.Open
import ConstGraph.Files.Glob
import ConstGraph.Settings

/-!
# Running on a file tree

A session is what a run of the program reads and changes: the file tree,
the log, and what it has printed. A job is a run that may fail; whatever
it did before it failed is done.
-/

namespace ConstGraph

/-- A table on the screen. -/
structure Table where
  /-- The title. -/
  title : String
  /-- The headers of the columns. -/
  columns : List String
  /-- The cells, row by row. -/
  rows : List (List String)
  deriving DecidableEq, Repr

/-- Something printed on the screen. -/
inductive Printed where
  /-- A text with markup. -/
  | markup (text : String)
  /-- A table. -/
  | table (t : Table)
  deriving DecidableEq, Repr

/-- What a run reads and changes. -/
structure Session where
  /-- The files. -/
  tree : FileTree := {}
  /-- The log, oldest first. -/
  log : List LogRecord := []
  /-- The text on the standard output. -/
  output : String := ""
  /-- What was printed on the screen. -/
  console : List Printed := []
  /-- What was printed beside the output, on the screen for errors. -/
  errors : List Printed := []
  deriving Repr

/-- Why a run stops. -/
inductive Failure where
  /-- The settings are refused. -/
  | settings (e : SettingsError)
  /-- The size limit is refused. -/
  | limit (e : LimitError)
  /-- A path does not lead to what is asked for. -/
  | file (e : FileError)
  /-- A pattern is refused. -/
  | glob (e : GlobError)
  /-- A tree is not analysed. -/
  | analysis (e : AnalysisError)
  /-- A cache does not do what it is asked to. -/
  | cache (e : CacheError)
  /-- The policy gives no answer. -/
  | policy (e : PolicyError)
  /-- Some values do not fit. -/
  | misfit (e : Misfit)
  /-- The run has said why it stops. -/
  | exit (code : Nat)
  deriving DecidableEq, Repr

/-- The text of a file error. -/
def FileError.message : FileError → String
  | notFound => "No such file or directory"
  | notDirectory => "Not a directory"
  | isDirectory => "Is a directory"
  | alreadyExists => "File exists"
  | tooManyLinks => "Too many levels of symbolic links"
  | nameTooLong => "File name too long"
  | nullCharacter => "embedded null byte"
  | timeOutOfRange => "timestamp out of range"
  | tooDeep => "Too many missing directories"

/-- The text of a cache error. -/
def CacheError.message : CacheError → String
  | file e => e.message
  | notTables => "file is not a database"
  | unavailable => "unable to open database file"
  | stored e => e.message
  | closed => "cache is closed"

/-- The text of a failure. -/
def Failure.message : Failure → String
  | settings e => e.message
  | limit e => e.message
  | file e => e.message
  | glob e => e.message
  | analysis e => e.message
  | cache e => e.message
  | policy e => e.message
  | misfit e => e.message
  | exit _ => ""

/-- A run that may fail. -/
abbrev Job := ExceptT Failure (StateM Session)

namespace Job

/-- An outcome as a job. -/
def lift {ε α : Type} (cause : ε → Failure) : Except ε α → Job α
  | .ok a => pure a
  | .error e => throw (cause e)

/-- The files as they are. -/
def tree : Job FileTree := do return (← get).tree

/-- Change the files. -/
def setTree (t : FileTree) : Job Unit := modify fun s => { s with tree := t }

/-- Make a change of the files. -/
def change (c : FileChange Unit) : Job Unit := do
  let (outcome, t) := c.run.run (← tree)
  setTree t
  lift .file outcome

/-- Open the cache of a project. -/
def openCache (root : PathName) (directory fingerprint : String) : Job AnalysisCache := do
  let (t, outcome) := AnalysisCache.openIn (← tree) root directory fingerprint
  setTree t
  lift .cache outcome

/-- Store the results of a file in a cache. -/
def store (c : AnalysisCache) (p : PathName) (r : WalkResult Json Json) : Job AnalysisCache := do
  let ((c, t), outcome) := c.set (← tree) p r
  setTree t
  lift .cache outcome
  return c

/-- Write a record to the log. -/
def log (r : LogRecord) : Job Unit := modify fun s => { s with log := s.log ++ [r] }

/-- Write a line to the standard output. -/
def echo (text : String) : Job Unit := modify fun s => { s with output := s.output ++ text ++ "\n" }

/-- Print on the screen. -/
def print (p : Printed) : Job Unit := modify fun s => { s with console := s.console ++ [p] }

/-- Print on the screen for errors. -/
def printError (p : Printed) : Job Unit := modify fun s => { s with errors := s.errors ++ [p] }

end Job

end ConstGraph
