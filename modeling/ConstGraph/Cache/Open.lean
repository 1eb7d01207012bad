import ConstGraph.Files.FileTree

/-!
# Caches on disk

A cache lives in a directory of its own below the root of a project. It is
opened by making that directory, unless it is there, and a file for the
tables in it.

An open cache holds on to its file: it goes on reading what it has read
when the file is removed, but can no longer write. If the file is
overwritten under its hands it can do neither. What a write leaves
unfinished is seen by the cache alone, and lost when it is closed.

A closed cache refuses everything it needs its tables for. What is decided
before they are looked at, such as that there is no file to have results
of, is answered as before.
-/

namespace ConstGraph

/-- Why a cache does not do what it is asked to. -/
inductive CacheError where
  /-- A path does not lead to what is asked for. -/
  | file (e : FileError)
  /-- The file of the tables is none. -/
  | notTables
  /-- The file of the tables cannot be opened or written. -/
  | unavailable
  /-- Stored texts cannot be used. -/
  | stored (e : StoredError)
  /-- The cache is closed. -/
  | closed
  deriving DecidableEq, Repr

/-- A cache that has been opened. -/
structure AnalysisCache where
  /-- The place of the file of the tables. -/
  place : Place
  /-- The number of that file. -/
  number : Nat
  /-- The tables as this cache sees them. -/
  tables : CacheTables
  /-- The version and the settings that matter. -/
  fingerprint : String
  /-- The cache has not been closed. -/
  isOpen : Bool := true
  deriving DecidableEq, Repr

namespace FileTree

/-! ## The file of the tables -/

/-- How many links may lead to the file of the tables. -/
def maxTableLinks : Nat := 201

/-- How many bytes the path of the file of the tables may have. -/
def maxTablePathBytes : Nat := 504

/-- The place some names lead to from a place, given innermost name first.
Unlike on a walk, what a double dot comes after need not exist. -/
def resolve (t : FileTree) (links : Nat) (done : Place) :
    List String → Except CacheError Place
  | [] => .ok done.reverse
  | name :: rest =>
    if name = "." then t.resolve links done rest
    else if name = ".." then t.resolve links done.tail rest
    else
      match t.entryAt done.reverse with
      | none => t.resolve links (name :: done) rest
      | some (.directory entries _) =>
        if maxNameBytes < name.utf8ByteSize then .error .unavailable
        else
          match entries.lookup name with
          | some (.link target) =>
            match links with
            | 0 => .error .unavailable
            | links + 1 =>
              t.resolve links (if target.absolute then [] else done) (target.names ++ rest)
          | _ => t.resolve links (name :: done) rest
      | some _ => .error .unavailable
termination_by names => (links, names.length)

/-- The place of the file of the tables at a path. -/
def tablesPlace (t : FileTree) (p : PathName) : Except CacheError Place := do
  let place ← t.resolve maxTableLinks [] p.parts
  if maxTablePathBytes < (PathName.mk "/" place).text.utf8ByteSize then throw .unavailable
  return place

/-- Beside the file of the tables stands a directory where its journal would
be. -/
def isJournalBlocked (t : FileTree) (place : Place) : Bool :=
  ["-journal", "-wal"].any fun ending =>
    (t.entryAt (place.dropLast ++ [place.getLastD "" ++ ending])).any (·.isDirectory)

/-- The file at a place is none of tables, and how that shows: as if there
were no tables in a file of one byte at most, and as a fault in any other. -/
def foreignContent? (content : FileContent) : Option CacheError :=
  match content with
  | .tables _ => none
  | other => some (if other.size ≤ 1 then .unavailable else .notTables)

/-- Write tables to the file at a place. The directory it stands in is
changed too. -/
def putTables (t : FileTree) (place : Place) (tables : CacheTables) : FileTree :=
  let t := t.putFile place (.tables tables) t.now
  t.modify place.dropLast (.withTime t.now)

/-- Open the file of the tables at a place, and make it if there is none or
if it holds nothing. -/
def openTables (t : FileTree) (place : Place) (fingerprint : String) :
    FileTree × Except CacheError AnalysisCache :=
  let start (t : FileTree) (number : Nat) : FileTree × Except CacheError AnalysisCache :=
    if t.isJournalBlocked place then (t, .error .unavailable)
    else (t.putTables place {}, .ok { place, number, tables := {}, fingerprint })
  match t.entryAt place with
  | some (.file (.tables tables) number _) =>
    if t.isJournalBlocked place then (t, .error .unavailable)
    else (t, .ok { place, number, tables, fingerprint })
  | some (.file content number _) =>
    if content.size ≤ 1 then start t number else (t, .error .notTables)
  | some _ => (t, .error .unavailable)
  | none =>
    let fits := (place.getLastD "").utf8ByteSize ≤ maxNameBytes
    match t.entryAt place.dropLast with
    | some (.directory ..) =>
      if fits then start (t.putFile place (.text "") t.now) t.clock else (t, .error .unavailable)
    | _ => (t, .error .unavailable)

/-- The key of the file at a path now, if there is one. -/
def cacheKey? (t : FileTree) (fingerprint : String) (p : PathName) :
    Except CacheError (Option CacheKey) :=
  match t.find true p with
  | .ok e => .ok (some ⟨e.changed.stamp, e.size, fingerprint⟩)
  | .error .nullCharacter => .error (.file .nullCharacter)
  | .error _ => .ok none

end FileTree

namespace AnalysisCache

/-- Open the cache of a project. -/
def openIn (t : FileTree) (root : PathName) (directory fingerprint : String) :
    FileTree × Except CacheError AnalysisCache :=
  let dir := root.join (.ofString directory)
  match (FileChange.ensureDirectory dir).run.run t with
  | (.error e, t) => (t, .error (.file e))
  | (.ok (), t) =>
    match t.tablesPlace (dir.child "analysis.db") with
    | .error e => (t, .error e)
    | .ok place => t.openTables place fingerprint

/-- Close a cache. -/
def close (c : AnalysisCache) : AnalysisCache := { c with isOpen := false }

/-! ## Access to the file -/

/-- The file of a cache still stands where it did. -/
def isAttached (c : AnalysisCache) (t : FileTree) : Bool :=
  match t.entryAt c.place with
  | some (.file _ number _) => number == c.number
  | _ => false

/-- The tables, if the cache is open and the file can still be read. -/
def read (c : AnalysisCache) (t : FileTree) : Except CacheError CacheTables :=
  if !c.isOpen then .error .closed
  else if c.isAttached t then
    match t.entryAt c.place with
    | some (.file content _ _) =>
      match FileTree.foreignContent? content with
      | some e => .error e
      | none => if t.isJournalBlocked c.place then .error .unavailable else .ok c.tables
    | _ => .ok c.tables
  else .ok c.tables

/-- The cache with its tables changed, if the file can still be written. -/
def write (c : AnalysisCache) (t : FileTree) (f : CacheTables → CacheTables) :
    Except CacheError AnalysisCache := do
  let tables ← c.read t
  if !c.isAttached t then throw .unavailable
  return { c with tables := f tables }

/-- Finish what was written. -/
def commit (c : AnalysisCache) (t : FileTree) : FileTree := t.putTables c.place c.tables

/-- Change the tables, and finish that. -/
def update (c : AnalysisCache) (t : FileTree) (f : CacheTables → CacheTables) :
    Except CacheError (AnalysisCache × FileTree) := do
  let c ← c.write t f
  return (c, c.commit t)

/-! ## Results of files -/

/-- The file has not changed since its results were stored. -/
def isCached (c : AnalysisCache) (t : FileTree) (p : PathName) : Except CacheError Bool := do
  match ← t.cacheKey? c.fingerprint p with
  | none => return false
  | some key => return (← c.read t).isCurrent p.text key

/-- The results of a file, if it has not changed since they were stored. -/
def get? (c : AnalysisCache) (t : FileTree) (p : PathName) :
    Except CacheError (Option (WalkResult Json Json)) := do
  match ← t.cacheKey? c.fingerprint p with
  | none => return none
  | some key => ((← c.read t).get? p.text key).mapError .stored

/-- Store the results of a file, if it exists. If a number in them is too
long to be stored, the key of the file is left unfinished. -/
def set (c : AnalysisCache) (t : FileTree) (p : PathName) (r : WalkResult Json Json) :
    (AnalysisCache × FileTree) × Except CacheError Unit :=
  match t.cacheKey? c.fingerprint p with
  | .error e => ((c, t), .error e)
  | .ok none => ((c, t), .ok ())
  | .ok (some key) =>
    match c.write t (·.insertKey p.text key) with
    | .error e => ((c, t), .error e)
    | .ok c =>
      if r.isStorable then
        let c := { c with tables := c.tables.insertResult p.text key r }
        ((c, c.commit t), .ok ())
      else ((c, t), .error (.stored .overlong))

/-- Finish what was left unfinished, if anything was. -/
def finish (c : AnalysisCache) (t : FileTree) : FileTree :=
  match t.entryAt c.place with
  | some (.file (.tables stored) number _) =>
    if number = c.number ∧ stored ≠ c.tables then c.commit t else t
  | _ => t

/-- Change the tables if that makes a difference. -/
def updateIf (c : AnalysisCache) (t : FileTree) (concerned : CacheTables → Bool)
    (f : CacheTables → CacheTables) : Except CacheError (AnalysisCache × FileTree) := do
  if concerned (← c.read t) then c.update t f else return (c, c.finish t)

/-- Forget the results of a file. -/
def invalidate (c : AnalysisCache) (t : FileTree) (p : PathName) :
    Except CacheError (AnalysisCache × FileTree) :=
  c.updateIf t (·.mentions p.text) (·.erase p.text)

/-- Forget all results. -/
def clear (c : AnalysisCache) (t : FileTree) : Except CacheError (AnalysisCache × FileTree) :=
  c.update t fun _ => {}

/-- Overwrite the stored texts of a file. -/
def modifyRow (c : AnalysisCache) (t : FileTree) (p : PathName) (f : ResultRow → ResultRow) :
    Except CacheError (AnalysisCache × FileTree) :=
  c.updateIf t (fun tables => (tables.row? p.text).isSome) (·.modifyRow p.text f)

/-- Forget the stored texts of a file, but not its key. -/
def eraseResult (c : AnalysisCache) (t : FileTree) (p : PathName) :
    Except CacheError (AnalysisCache × FileTree) :=
  c.updateIf t (fun tables => (tables.row? p.text).isSome) (·.eraseResult p.text)

/-- How much the cache holds. -/
def stats (c : AnalysisCache) (t : FileTree) : Except CacheError CacheStats := do
  (← c.read t).stats.mapError .stored

end AnalysisCache

end ConstGraph
