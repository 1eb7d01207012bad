import ConstGraph.Command.Arguments
import ConstGraph.Command.Audit
import ConstGraph.Project

/-!
# Running a command

A command checks its path, then the settings, and then does its work. What
it prints goes to the screens; the document and the version go to the
standard output. Icons in text are replaced where the terminal lacks them.
-/

namespace ConstGraph

namespace Command

/-- Where and how a command is run. -/
structure Setting where
  /-- The environment. -/
  env : Environment
  /-- The working directory. -/
  directory : PathName
  /-- The terminal. -/
  terminal : Terminal := {}

/-- What is printed as the terminal shows it. Tables are shown as they
are. -/
def shown (terminal : Terminal) : Printed → Printed
  | .markup text => .markup (terminal.sanitize text)
  | .table t => .table t

section

variable (s : Setting)

/-- Print on the screen. -/
def print (p : Printed) : Job Unit := Job.print (shown s.terminal p)

/-- Print on the screen for errors. -/
def printError (p : Printed) : Job Unit := Job.printError (shown s.terminal p)

/-- Check the settings, and say what is wrong with them. -/
def checkSettings : Job Unit := do
  match s.env.check with
  | .ok () => return
  | .error e =>
    printError s (.markup s!"[bold red]Configuration error:[/bold red] {Markup.escape e.message}")
    throw (.exit 1)

/-- The full path of a project, which must exist. -/
def requirePath (text : String) : Job PathName := do
  let path := s.directory.join (.ofString text)
  if ← Job.lift .file ((← Job.tree).pathExists path) then return path
  printError s (.markup
    s!"[bold red]Error:[/bold red] Project path does not exist: {Markup.escape path.text}")
  throw (.exit 1)

/-- The graph of a project. -/
def graph (path : PathName) (noCache : Bool) : Job (DependencyGraph Json Json) := do
  checkSettings s
  return (← Project.build s.env path (!noCache) []).1

/-- Write the document of a project to the output or to a file. -/
def runExport (path : String) (output : Option String) (noCache pretty : Bool) : Job Unit := do
  let path ← requirePath s path
  let g ← graph s path noCache
  let layout := Json.Layout.ofIndent (if pretty then some 2 else none)
  let document ← Job.lift .misfit (g.exportedValues s.env.separator layout)
  match output with
  | none => Job.echo document
  | some file =>
    let file := PathName.ofString file
    Job.change (FileChange.writeFile (s.directory.join file) (.text document))
    printError s (.markup
      (s!"[green]✓ Wrote {g.definitions.length} definitions and " ++
        s!"{g.relations.length} relations to {Markup.escape file.text}[/green]"))

/-- Show a summary of a project. -/
def runAudit (path : String) (noCache all : Bool) (limit : Int) : Job Unit := do
  let path ← requirePath s path
  print s (.markup s!"[bold blue]Analyzing project:[/bold blue] {Markup.escape path.text}\n")
  let g ← graph s path noCache
  let (report, misfit) := g.auditValues s.env.separator all limit
  report.forM (print s)
  if let some e := misfit then throw (.misfit e)

/-- The cache of a project. -/
def openCache (path : PathName) : Job AnalysisCache := do
  checkSettings s
  Job.openCache path s.env.cachePath s.env.cacheFingerprint

/-- Empty the cache of a project. -/
def runClear (path : String) : Job Unit := do
  let path ← requirePath s path
  let c ← openCache s path
  Job.setTree (← Job.lift .cache (c.clear (← Job.tree))).2
  print s (.markup s!"[green]✓ Cache cleared for {Markup.escape path.text}[/green]")

/-- The table of how much a cache holds. -/
def statsTable (path : PathName) (stats : CacheStats) : Table where
  title := s!"Cache Statistics: {Markup.escape path.text}"
  columns := ["Metric", "Count"]
  rows :=
    [["Total Files Cached", toString stats.files], ["Definitions", toString stats.definitions],
      ["Relations", toString stats.relations]]

/-- Show how much the cache of a project holds. -/
def runStats (path : String) : Job Unit := do
  let path ← requirePath s path
  let c ← openCache s path
  let stats ← Job.lift .cache (c.stats (← Job.tree))
  print s (.table (statsTable path stats))

/-- Run a command. -/
def run : Command → Job Unit
  | .exportGraph path output noCache pretty => runExport s path output noCache pretty
  | .auditGraph path noCache all limit => runAudit s path noCache all limit
  | .clearCache path => runClear s path
  | .showStats path => runStats s path
  | .showVersion => Job.echo s!"rubymap {version}"

end

/-- The records a log shows under the settings. -/
def logText (s : Setting) (records : List LogRecord) : String :=
  let level := (LogLevel.ofName? s.env.logLevel).getD LogLevel.warning
  String.join (records.map (LogSink.write { level, installed := true } s.terminal))

/-- What a run of the program leaves. -/
structure Outcome where
  /-- The files and what was printed. -/
  session : Session
  /-- The exit code. -/
  code : Nat
  /-- The failure the program broke off with. -/
  failure : Option Failure := none

/-- Run a command on some files. -/
def runOn (s : Setting) (tree : FileTree) (c : Command) : Outcome :=
  match (run s c).run.run { tree := tree } with
  | (.ok (), session) => ⟨session, 0, none⟩
  | (.error (.exit code), session) => ⟨session, code, none⟩
  | (.error e, session) => ⟨session, 1, some e⟩

end Command

end ConstGraph
