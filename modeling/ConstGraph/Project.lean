import ConstGraph.Session

/-!
# The graph of a project

All sources below a directory are found, analysed one by one in the order
of their paths, and put together. With a cache the results of a file that
has not changed are taken from there, and new results are stored; a
skipped file is never stored.
-/

namespace ConstGraph

namespace FileTree

/-- The file at a path is admitted: it is a file, not a link, and not too
large. -/
def admits (t : FileTree) (limit : SizeLimit) (p : PathName) : Bool :=
  match t.find false p with
  | .ok (.file content _ _) => (content.size : Int) ≤ limit.bytes
  | _ => false

/-- What is found when the file at a path is read. A file that is admitted
can be read: who may read what is no part of a file tree. -/
def source (t : FileTree) (limit : SizeLimit) (p : PathName) : Source :=
  match t.find false p with
  | .ok (.file content _ _) =>
    if (content.size : Int) ≤ limit.bytes then .tree content.tree else .inadmissible
  | _ => .inadmissible

end FileTree

namespace Project

/-- The directories that are never searched. -/
def excludedDirectories : List String :=
  ["vendor", "bundle", ".bundle", "node_modules", ".git", "tmp", "log", "coverage"]

/-- The patterns that are searched for if none are given. -/
def standardPatterns : List String := ["**/*.rb"]

/-- A path below the root of a project may be analysed. -/
def isEligible (root : PathName) (cachePath : String) (p : PathName) : Bool :=
  p.isRuby && !(p.parts.drop root.parts.length).any
    ((excludedDirectories ++ [cachePath]).contains ·)

/-- A path added to a list of paths, unless it is there. -/
def insertPath (p : PathName) (ps : List PathName) : List PathName :=
  if p ∈ ps then ps else p :: ps

/-- Paths in order, each once. -/
def sortPaths (ps : List PathName) : List PathName :=
  (ps.foldr insertPath []).mergeSort fun p q => (p.order q).isLE

/-- The paths below a directory that fit some pattern. -/
def search (t : FileTree) (root : PathName) :
    List String → Except Failure (List PathName)
  | [] => .ok []
  | pattern :: rest =>
    match Glob.ofString pattern with
    | .error e => .error (.glob e)
    | .ok g =>
      match g.paths t root with
      | .error e => .error (.file e)
      | .ok found => (search t root rest).map (found ++ ·)

/-- The sources of a project, in order. A project that is a single file has
that source only. -/
def discover (t : FileTree) (root : PathName) (cachePath : String) (patterns : List String) :
    Except Failure (List PathName) :=
  match t.isFile root with
  | .error e => .error (.file e)
  | .ok true => .ok [root]
  | .ok false =>
    (search t root (if patterns.isEmpty then standardPatterns else patterns)).map fun found =>
      sortPaths (found.filter (isEligible root cachePath))

/-- What a project is analysed with. -/
structure Options where
  /-- The largest file. -/
  limit : SizeLimit
  /-- The types local assignments bind. -/
  infer : Inference

/-- Analyse a file. -/
def analyze (o : Options) (p : PathName) : Job FileAnalysis := do
  let t ← Job.tree
  match FileAnalysis.parse { file := p.text, infer := o.infer } (t.source o.limit p) with
  | (a, .ok none) => return a
  | (a, .ok (some reason)) =>
    Job.log (reason.record a.file)
    return a
  | (_, .error e) => throw (.analysis e)

/-- What a file contributes. -/
structure Contribution where
  /-- The file. -/
  path : PathName
  /-- What was found. -/
  result : WalkResult Json Json
  /-- Nothing was found because it was skipped. -/
  skipped : Bool

/-- Analyse a file, or take its results from a cache; the cache as it is
afterwards is handed back. -/
def process (o : Options) (cache : Option AnalysisCache) (p : PathName) :
    Job (Contribution × Option AnalysisCache) := do
  match cache with
  | none =>
    let a ← analyze o p
    return (⟨p, a.result.values, a.skipped⟩, none)
  | some c =>
    match ← Job.lift .cache (c.get? (← Job.tree) p) with
    | some result =>
      Job.log ⟨LogLevel.debug, "rubymap.analyzer.graph_builder", s!"Cache hit for {p.text}"⟩
      return (⟨p, result, false⟩, some c)
    | none =>
      let a ← analyze o p
      let found : Contribution := ⟨p, a.result.values, a.skipped⟩
      if a.skipped then return (found, some c)
      return (found, some (← Job.store c p found.result))

/-- Analyse files one after the other. -/
def processAll (o : Options) (cache : Option AnalysisCache) :
    List PathName → Job (List Contribution)
  | [] => return []
  | p :: ps => do
    let (c, cache) ← process o cache p
    let cs ← processAll o cache ps
    return c :: cs

/-- Open the cache of a project, if one is asked for and the project is a
directory. -/
def openCache (env : Environment) (root : PathName) (useCache : Bool) :
    Job (Option AnalysisCache) := do
  if !useCache then return none
  if !(← Job.lift .file ((← Job.tree).isDirectory root)) then return none
  return some (← Job.openCache root env.cachePath env.cacheFingerprint)

/-- An error of putting a graph together, as why a run stops. -/
def assemblyFailure : AssemblyError → Failure
  | .misfit e => .misfit e
  | .policy e => .policy e

/-- The graph of a project under settings that have been checked, and
whether a cache was used. -/
def build (env : Environment) (root : PathName) (useCache : Bool) (patterns : List String) :
    Job (DependencyGraph Json Json × Bool) := do
  let bytes ← Job.lift .settings env.fileSizeLimit
  let limit ← Job.lift .limit (SizeLimit.ofInt bytes)
  let cache ← openCache env root useCache
  let files ← Job.lift id (discover (← Job.tree) root env.cachePath patterns)
  let found ← processAll ⟨limit, env.inference⟩ cache files
  let policy ← Job.lift .policy (CyclePolicy.ofName env.cyclePolicy)
  let g ← Job.lift assemblyFailure (DependencyGraph.assembleValues policy (found.map (·.result))
    (files.map (·.text)) ((found.filter (·.skipped)).map (·.path.text)))
  Job.log g.record
  return (g, cache.isSome)

end Project

end ConstGraph
