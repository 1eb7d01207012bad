/-!
# Environment variables

The variables of the process, each with its value. A variable may be set
to the empty text, which is not the same as being unset. Neither a name
nor a value may hold a null character, and a name holds no equals sign.
-/

namespace ConstGraph

/-- The variables that are set. -/
structure Environment where
  /-- Each name with its value. -/
  entries : List (String × String) := []
  deriving DecidableEq, Repr

/-- Why a variable is not set. -/
inductive VariableError where
  /-- The name or the value holds a null character. -/
  | nullCharacter
  /-- The name holds an equals sign. -/
  | badName
  deriving DecidableEq, Repr

/-- The text of a variable error. -/
def VariableError.message : VariableError → String
  | nullCharacter => "embedded null byte"
  | badName => "illegal environment variable name"

namespace Environment

/-- The value of a variable, if it is set. -/
def get? (env : Environment) (name : String) : Option String := env.entries.lookup name

/-- The value of a variable, or another text if it is not set. -/
def getD (env : Environment) (name otherwise : String) : String :=
  (env.get? name).getD otherwise

/-- The environment without a variable. -/
def unset (env : Environment) (name : String) : Environment :=
  ⟨env.entries.filter (·.1 != name)⟩

/-- The environment with a variable set. -/
def set (env : Environment) (name value : String) : Environment :=
  ⟨(name, value) :: (env.unset name).entries⟩

/-- The environment with a variable set, if it can be. -/
def put (env : Environment) (name value : String) : Except VariableError Environment :=
  if name.contains '\x00' || value.contains '\x00' then .error .nullCharacter
  else if name.contains '=' then .error .badName
  else .ok (env.set name value)

/-- Set a variable, or unset it. -/
def assign (env : Environment) (name : String) : Option String → Except VariableError Environment
  | some value => env.put name value
  | none => .ok (env.unset name)

/-- Set or unset variables, one after the other, up to one that cannot be
set. -/
def assignAll (env : Environment) :
    List (String × Option String) → Environment × Except VariableError Unit
  | [] => (env, .ok ())
  | (name, value) :: rest =>
    match env.assign name value with
    | .ok env => env.assignAll rest
    | .error e => (env, .error e)

/-- The environment of some variables. -/
def ofList (entries : List (String × String)) : Environment :=
  entries.foldl (fun env e => env.set e.1 e.2) {}

theorem get?_set_self (env : Environment) (name value : String) :
    (env.set name value).get? name = some value := by
  simp [get?, set]

end Environment

end ConstGraph
