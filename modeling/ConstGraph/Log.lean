import ConstGraph.Terminal
import ConstGraph.Text.Quoted

/-!
# Log records

A record has a level, the name of the logger it was given to, and a
message. `LogSink` is where records go: until it is set up, only the
messages of warnings and worse are shown, bare; afterwards every record of
the sink's level or above is written on a line of its own.
-/

namespace ConstGraph

/-- A message for the log. -/
structure LogRecord where
  /-- How severe it is; a greater level is more severe. -/
  level : Int
  /-- The part of the program it comes from. -/
  logger : String
  /-- What it says. -/
  message : String
  deriving DecidableEq, Repr

namespace LogLevel

/-- The level of messages for debugging. -/
def debug : Int := 10

/-- The level of warnings. -/
def warning : Int := 30

/-- The levels that have a name, and their names. -/
def names : List (String × Int) :=
  [("CRITICAL", 50), ("ERROR", 40), ("WARNING", 30), ("INFO", 20), ("DEBUG", 10), ("NOTSET", 0)]

/-- Further names of levels. -/
def synonyms : List (String × Int) := [("FATAL", 50), ("WARN", 30)]

/-- The level of a name. -/
def ofName? (name : String) : Option Int := (names ++ synonyms).lookup name

/-- The name of a level, or its number. -/
def name (level : Int) : String :=
  match names.find? (·.2 == level) with
  | some (name, _) => name
  | none => s!"Level {level}"

/-- The level from which records count, where `set` is the level asked
for; with level 0 it is the level of warnings. -/
def threshold (set : Int) : Int := if set = 0 then warning else set

/-- A record of some level counts, where `set` is the level asked for. No
record of level 0 or below ever does. -/
def admits (set level : Int) : Bool := decide (0 < level) && decide (threshold set ≤ level)

end LogLevel

/-- A record as a line of text. -/
def LogRecord.text (r : LogRecord) : String :=
  s!"{LogLevel.name r.level} {r.logger}: {r.message}"

/-- The level asked for when a log is set up. -/
inductive LogRequest where
  /-- A level by name. -/
  | name (text : String)
  /-- A level by number. -/
  | number (level : Int)
  /-- Level 1 by a yes, or level 0 by a no. -/
  | flag (yes : Bool)
  /-- Something else. -/
  | other
  deriving DecidableEq, Repr

/-- Why a log is not set up. -/
inductive LogError where
  /-- No level has this name. -/
  | unknownLevel (name : String)
  /-- What was asked for is no level. -/
  | notLevel
  deriving DecidableEq, Repr

/-- The text of a log error. -/
def LogError.message : LogError → String
  | unknownLevel name => s!"Unknown level: {Text.quoted name}"
  | notLevel => ""

/-- Where records go. -/
structure LogSink where
  /-- The level asked for. -/
  level : Int := 0
  /-- It has been set up. -/
  installed : Bool := false
  /-- The level was asked for by a yes or a no. -/
  byFlag : Bool := false
  deriving DecidableEq, Repr

namespace LogSink

/-- Set up a log. With an unknown level it is set up all the same and keeps
the level it had. -/
def configure (s : LogSink) : LogRequest → LogSink × Except LogError Unit
  | .number level => ({ level, installed := true }, .ok ())
  | .flag yes => ({ level := if yes then 1 else 0, installed := true, byFlag := true }, .ok ())
  | .name text =>
    match LogLevel.ofName? text with
    | some level => ({ level, installed := true }, .ok ())
    | none => ({ s with installed := true }, .error (.unknownLevel text))
  | .other => ({ s with installed := true }, .error .notLevel)

/-- The number of places records are written to. -/
def handlers (s : LogSink) : Nat := if s.installed then 1 else 0

/-- What a record writes. -/
def write (s : LogSink) (terminal : Terminal) (r : LogRecord) : String :=
  if s.installed then
    if LogLevel.admits s.level r.level then terminal.sanitize r.text ++ "\n" else ""
  else if LogLevel.warning ≤ r.level then r.message ++ "\n"
  else ""

end LogSink

end ConstGraph
