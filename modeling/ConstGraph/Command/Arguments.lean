import ConstGraph.Text.Integer

/-!
# The command line

`export` and `audit` take a path and options, before or after it; `cache`
takes a command of its own. An option that takes a value has it behind an
equals sign or as the next argument. After `--` every argument is a path.
What fits none of this is no command.
-/

namespace ConstGraph

/-- What the program is asked to do. -/
inductive Command where
  /-- Write the document of a project. -/
  | exportGraph (path : String) (output : Option String) (noCache pretty : Bool)
  /-- Show a summary of a project. -/
  | auditGraph (path : String) (noCache showRelations : Bool) (limit : Int)
  /-- Empty the cache of a project. -/
  | clearCache (path : String)
  /-- Show how much the cache of a project holds. -/
  | showStats (path : String)
  /-- Show the version. -/
  | showVersion
  deriving DecidableEq, Repr

namespace Command

/-- An option of a command. -/
structure OptionForm where
  /-- Its name, with both hyphens. -/
  name : String
  /-- Its letter, if it has one. -/
  letter : Option Char := none
  /-- It takes a value. -/
  takesValue : Bool := false
  deriving DecidableEq, Repr

/-- What was given on the command line. -/
structure Given where
  /-- The options and their values, the last one first. -/
  options : List (String × String) := []
  /-- The other arguments, in order. -/
  paths : List String := []
  deriving DecidableEq, Repr

namespace Given

/-- An option was given. -/
def has (g : Given) (name : String) : Bool := (g.options.lookup name).isSome

/-- The value of an option; the last one counts. -/
def value? (g : Given) (name : String) : Option String := g.options.lookup name

/-- One more option. -/
def option (g : Given) (form : OptionForm) (value : String) : Given :=
  { g with options := (form.name, value) :: g.options }

/-- The one path given, or the working directory; none if there are more. -/
def path? (g : Given) : Option String :=
  match g.paths with
  | [] => some "."
  | [p] => some p
  | _ => none

end Given

/-- An argument that is an option: its name or letter, and the value that
stands in the argument itself. -/
inductive OptionUse where
  /-- An option by name. -/
  | named (name : String) (value : Option String)
  /-- An option by letter. -/
  | lettered (letter : Char) (value : Option String)
  deriving DecidableEq, Repr

/-- How an argument uses an option, if it does: it has a hyphen and
something behind it. -/
def optionUse? (arg : String) : Option OptionUse :=
  match arg.toList with
  | '-' :: '-' :: cs =>
    let name := cs.takeWhile (· != '=')
    let value := match cs.drop name.length with
      | _ :: v => some (String.ofList v)
      | [] => none
    some (.named (String.ofList ('-' :: '-' :: name)) value)
  | '-' :: c :: cs => some (.lettered c (if cs.isEmpty then none else some (String.ofList cs)))
  | _ => none

/-- The form of the option an argument uses, and the value it has there. -/
def formOf? (forms : List OptionForm) : OptionUse → Option (OptionForm × Option String)
  | .named name value => (forms.find? (·.name == name)).map (·, value)
  | .lettered c value => (forms.find? (·.letter == some c)).map (·, value)

/-- Read the arguments of a command; none if they do not fit. -/
def scan (forms : List OptionForm) (given : Given) : List String → Option Given
  | [] => some given
  | "--" :: rest => some { given with paths := given.paths ++ rest }
  | arg :: rest =>
    match optionUse? arg with
    | none => scan forms { given with paths := given.paths ++ [arg] } rest
    | some use =>
      match formOf? forms use with
      | none => none
      | some (form, some value) =>
        if form.takesValue then scan forms (given.option form value) rest else none
      | some (form, none) =>
        if form.takesValue then
          match rest with
          | value :: rest => scan forms (given.option form value) rest
          | [] => none
        else scan forms (given.option form "") rest

/-- The command to write the document of a project. -/
def exportOf? (args : List String) : Option Command := do
  let given ← scan [⟨"--output", some 'o', true⟩, ⟨"--no-cache", none, false⟩,
    ⟨"--pretty", none, false⟩] {} args
  if (given.value? "--output").any (·.contains '\x00') then none
  return .exportGraph (← given.path?) (given.value? "--output") (given.has "--no-cache")
    (given.has "--pretty")

/-- The command to show a summary of a project. -/
def auditOf? (args : List String) : Option Command := do
  let given ← scan [⟨"--no-cache", none, false⟩, ⟨"--show-relations", none, false⟩,
    ⟨"--limit", none, true⟩] {} args
  let limit ← match given.value? "--limit" with
    | none => some 50
    | some text => Text.plainInteger? text
  return .auditGraph (← given.path?) (given.has "--no-cache") (given.has "--show-relations") limit

/-- The commands on a cache. -/
def cacheOf? (args : List String) : Option Command :=
  let args := if args.head? == some "--" then args.tail else args
  match args with
  | "clear" :: rest => do return .clearCache (← (← scan [] {} rest).path?)
  | "stats" :: rest => do return .showStats (← (← scan [] {} rest).path?)
  | _ => none

/-- The command of a command line without the options before it. -/
def named? : List String → Option Command
  | "export" :: rest => exportOf? rest
  | "audit" :: rest => auditOf? rest
  | "cache" :: rest => cacheOf? rest
  | _ => none

/-- The arguments from the command on, and whether the version was asked
for before it; none if an option before it is unknown. -/
def leading : List String → Option (Bool × List String)
  | [] => some (false, [])
  | "--" :: rest => some (false, rest)
  | "--version" :: rest => (leading rest).map fun r => (true, r.2)
  | arg :: rest => if (optionUse? arg).isSome then none else some (false, arg :: rest)

/-- The words commands start with. -/
def words : List String := ["export", "audit", "cache"]

/-- The command of a command line. The version comes before any command.
Where no command stands options are looked for once more. -/
def parse? (args : List String) : Option Command := do
  let (version, rest) ← leading args
  if version then return .showVersion
  if rest.head?.any words.contains then named? rest
  else if (← leading rest).1 then return .showVersion
  else none

end Command

end ConstGraph
