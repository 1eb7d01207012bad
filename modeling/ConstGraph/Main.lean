import ConstGraph.Cache.Stored
import ConstGraph.Command.Run
import ConstGraph.Concrete.Stored

/-!
# The program

Reads the files a command is about into a file tree, runs the command on
it, and writes back what the command has changed. The tree of a source is
read from a JSON file beside it, named like it with `.tree.json` behind.
-/

namespace ConstGraph.Program

/-- The variables the settings are read from. -/
def settingNames : List String :=
  ["RUBYMAP_FILE_SIZE_LIMIT", "RUBYMAP_CYCLE_POLICY", "RUBYMAP_INFER_TYPES",
    "RUBYMAP_NAMESPACE_SEPARATOR", "RUBYMAP_CACHE_PATH", "RUBYMAP_LOG_LEVEL",
    "PYTHON_DOTENV_DISABLED"]

/-- Read the environment, and then the file of variables. -/
def readEnvironment : IO Environment := do
  let mut env : Environment := {}
  for name in settingNames do
    if let some value ← IO.getEnv name then env := env.set name value
  try
    return (EnvFile.load (← IO.FS.readFile ".env") env).1
  catch _ => return env

/-- Read JSON from a file. -/
def readJson (path : String) : IO (Option Json) := do
  try
    return (Json.parse (← IO.FS.readFile path)).toOption
  catch _ => return none

/-- Read what a file holds. -/
def readContent (path : String) (size : Nat) : IO FileContent := do
  if path.endsWith "analysis.db" then
    return .tables (((← readJson path).map CacheTables.ofJson).getD {})
  match ← readJson (path ++ ".tree.json") with
  | none => return .zeros size
  | some j => return .source (← IO.FS.readFile path) (.ofJson j)

/-- Read a file or a directory and all below it. The files are numbered as
they are read. -/
partial def readEntry (p : PathName) : StateT Nat IO (Option FileEntry) := do
  let path := (← IO.currentDir) / p.text
  try
    let info ← path.symlinkMetadata
    let changed := Moment.given (info.modified.sec * 1000000000 + info.modified.nsec.toNat)
    match info.type with
    | .dir =>
      let mut entries := #[]
      for e in ← path.readDir do
        if let some entry ← readEntry (p.child e.fileName) then
          entries := entries.push (e.fileName, entry)
      return some (.directory entries.toList changed)
    | .symlink =>
      let target ← IO.FS.realPath path
      return some (.link (.ofString target.toString))
    | _ =>
      let number ← getModify (· + 1)
      return some (.file (← readContent p.text info.byteSize.toNat) number changed)
  catch _ => return none

/-- The directory with an entry at a place below it, and the directories on
the way there. -/
def graft (e : FileEntry) : Place → FileEntry → FileEntry
  | [], _ => e
  | name :: rest, .directory entries changed =>
    let inner := graft e rest ((entries.lookup name).getD (.directory [] changed))
    .directory ((name, inner) :: entries.filter (·.1 != name)) changed
  | _ :: _, other => other

/-- Read what stands at a path into a tree. -/
def readInto (t : FileTree) (p : PathName) : IO FileTree := do
  let (entry, clock) ← (readEntry p).run t.clock
  match entry with
  | some e => return ⟨graft e p.parts t.top, clock⟩
  | none => return t

/-- The paths a command is about. -/
def pathsOf : Command → List String
  | .exportGraph path output _ _ => path :: output.toList
  | .auditGraph path _ _ _ => [path]
  | .clearCache path => [path]
  | .showStats path => [path]
  | .showVersion => []

/-- Write back the files and directories at a path that are new or changed. -/
partial def writeBack (before : Option FileEntry) (after : FileEntry) (p : PathName) :
    IO Unit := do
  match after with
  | .directory entries _ =>
    if before.isNone then IO.FS.createDirAll p.text
    for (name, e) in entries do
      writeBack (before.bind (·.child? name)) e (p.child name)
  | .file (.text text) _ _ => IO.FS.writeFile p.text text
  | .file (.tables t) _ _ => IO.FS.writeFile p.text (t.toJson.render .oneLine)
  | _ => pure ()

/-- Print on a screen. -/
def display (stream : IO.FS.Stream) : Printed → IO Unit
  | .markup text => stream.putStrLn text
  | .table t => do
    stream.putStrLn t.title
    for row in t.columns :: t.rows do stream.putStrLn ("  ".intercalate row)

/-- Run the program and give its exit code. -/
def run (args : List String) : IO UInt32 := do
  let some command := Command.parse? args
    | do
      IO.eprintln "usage: rubymap [--version] export|audit|cache clear|cache stats [PATH] [OPTIONS]"
      return 2
  let setting : Command.Setting :=
    { env := ← readEnvironment, directory := .ofString (← IO.currentDir).toString }
  let mut tree ← readInto {} setting.directory
  for path in pathsOf command do
    tree ← readInto tree (setting.directory.join (.ofString path))
  let out := Command.runOn setting tree command
  writeBack (some tree.top) out.session.tree.top ⟨"/", []⟩
  IO.print out.session.output
  out.session.console.forM (display (← IO.getStdout))
  IO.eprint (Command.logText setting out.session.log)
  out.session.errors.forM (display (← IO.getStderr))
  if let some e := out.failure then IO.eprintln e.message
  return UInt32.ofNat out.code

end ConstGraph.Program

/-- The entry point. -/
def main (args : List String) : IO UInt32 := ConstGraph.Program.run args
