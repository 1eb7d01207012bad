import ConstGraph.Cycle
import ConstGraph.EnvFile
import ConstGraph.Log
import ConstGraph.Text.Integer
import ConstGraph.Walk.Context

/-!
# Settings

The settings are read from environment variables whenever they are asked
for. They are checked when a configuration is made; a variable that
changes afterwards shows at once and is not checked again.
-/

namespace ConstGraph

/-- Why a configuration is refused. -/
inductive SettingsError where
  /-- The size limit is no integer. -/
  | limitNotInteger (text : String)
  /-- The size limit lets no file through. -/
  | limitNotPositive (bytes : Int)
  /-- No policy has this name. -/
  | unknownPolicy (name : String)
  /-- No log level has this name. -/
  | unknownLevel (name : String)
  /-- A variable of a file is not set. -/
  | unset (e : VariableError)
  deriving DecidableEq, Repr

/-- The names of the policies that may be set. -/
def settablePolicies : List String := ["scc", "ancestry", "combined"]

namespace SettingsError

/-- The text of a settings error. -/
def message : SettingsError → String
  | limitNotInteger text =>
    s!"RUBYMAP_FILE_SIZE_LIMIT must be an integer, got {Text.quoted text}"
  | limitNotPositive bytes => s!"RUBYMAP_FILE_SIZE_LIMIT must be positive, got {bytes}"
  | unknownPolicy name =>
    "RUBYMAP_CYCLE_POLICY must be one of " ++ ", ".intercalate settablePolicies ++
      s!", got {Text.quoted name}"
  | unknownLevel name => s!"RUBYMAP_LOG_LEVEL is not a logging level: {Text.quoted name}"
  | unset e => e.message

end SettingsError

/-- The version of the program. -/
def version : String := "1.0.0"

namespace Environment

/-- The size in bytes up to which files are read. -/
def fileSizeLimit (env : Environment) : Except SettingsError Int :=
  let text := env.getD "RUBYMAP_FILE_SIZE_LIMIT" "2097152"
  match Text.integer? text with
  | some n => .ok n
  | none => .error (.limitNotInteger text)

/-- The name of the policy for circular references. -/
def cyclePolicy (env : Environment) : String :=
  Text.lower (Text.strip (env.getD "RUBYMAP_CYCLE_POLICY" "scc"))

/-- The types of locals are inferred from constructor calls. -/
def infersTypes (env : Environment) : Bool :=
  ["1", "true", "yes", "on"].contains
    (Text.lower (Text.strip (env.getD "RUBYMAP_INFER_TYPES" "0")))

/-- The inference that is set. -/
def inference (env : Environment) : Inference :=
  if env.infersTypes then .constructor else .none

/-- The text between the segments of a path. -/
def separator (env : Environment) : String := env.getD "RUBYMAP_NAMESPACE_SEPARATOR" "."

/-- The directory of the cache, from the root of the project. -/
def cachePath (env : Environment) : String := env.getD "RUBYMAP_CACHE_PATH" ".rubymap_cache"

/-- What the results of a file depend on besides the file. -/
def cacheFingerprint (env : Environment) : String :=
  let infers := if env.infersTypes then "1" else "0"
  s!"{version}:infer_types={infers}"

/-- The name of the level from which records are logged. -/
def logLevel (env : Environment) : String :=
  Text.upper (Text.strip (env.getD "RUBYMAP_LOG_LEVEL" "WARNING"))

/-- Check the settings: the size limit, then the policy, then the level. -/
def check (env : Environment) : Except SettingsError Unit := do
  let limit ← env.fileSizeLimit
  if limit ≤ 0 then throw (.limitNotPositive limit)
  if !settablePolicies.contains env.cyclePolicy then throw (.unknownPolicy env.cyclePolicy)
  if (LogLevel.ofName? env.logLevel).isNone then throw (.unknownLevel env.logLevel)

end Environment

/-- The configuration shared by the whole program, made when it is first
asked for. -/
structure SharedSettings where
  /-- The environment. -/
  env : Environment := {}
  /-- The number of the configuration in use. -/
  current : Option Nat := none
  /-- How many have been made. -/
  made : Nat := 0
  deriving Repr

namespace SharedSettings

/-- Read a file of variables, if there is one, and check the settings. -/
def load (s : SharedSettings) (file : Option String) :
    SharedSettings × Except SettingsError Unit :=
  match file with
  | none => (s, s.env.check)
  | some text =>
    match EnvFile.load text s.env with
    | (env, .ok ()) => ({ s with env }, env.check)
    | (env, .error e) => ({ s with env }, .error (.unset e))

/-- The configuration in use, by number. -/
def get (s : SharedSettings) : SharedSettings × Except SettingsError Nat :=
  match s.current with
  | some n => (s, .ok n)
  | none =>
    match s.env.check with
    | .ok () => ({ s with current := some s.made, made := s.made + 1 }, .ok s.made)
    | .error e => (s, .error e)

/-- Forget the configuration in use. -/
def reset (s : SharedSettings) : SharedSettings := { s with current := none }

/-- Set or unset variables. -/
def assign (s : SharedSettings) (values : List (String × Option String)) :
    SharedSettings × Except VariableError Unit :=
  let (env, outcome) := s.env.assignAll values
  ({ s with env }, outcome)

end SharedSettings

end ConstGraph
