import ConstGraph.Files.Entry

/-!
# File trees

A file tree is its topmost directory, with a clock that ticks whenever the
tree is changed.

`locate` walks a path to the spot it stands for. Every name but the last
must be a directory; links are followed on the way, but only so many of
them. A change may fail half-way: what it did before that is done.
-/

namespace ConstGraph

/-- A file tree. -/
structure FileTree where
  /-- The topmost directory. -/
  top : FileEntry := .directory [] (.tick 0)
  /-- How often the tree has been changed. -/
  clock : Nat := 0
  deriving Repr, Inhabited

/-- What a path leads to. -/
structure Spot where
  /-- The place. -/
  place : Place
  /-- What is there. -/
  entry : Option FileEntry
  /-- The path ends in a slash: only a directory will do. -/
  slash : Bool := false

namespace FileTree

/-! ## Finding a spot -/

/-- How many links a path may lead through. -/
def maxLinks : Nat := 40

/-- How many bytes a name may have. -/
def maxNameBytes : Nat := 255

/-- How many bytes a path may have. -/
def maxPathBytes : Nat := 4095

/-- The directories on the way to where a walk has come, the innermost one
first. -/
abbrev Trail := List (String × FileEntry)

/-- The place a walk has come to. -/
def Trail.place (trail : Trail) : Place := (trail.map (·.1)).reverse

/-- The directory a walk has come to. -/
def here (t : FileTree) (trail : Trail) : FileEntry :=
  match trail with
  | [] => t.top
  | (_, e) :: _ => e

/-- Walk from a directory along some names. The last name need not exist.
If it is a link it is followed only if `follow` says so. -/
def walk (t : FileTree) (follow slash : Bool) (links : Nat) (trail : Trail) :
    List String → Except FileError Spot
  | [] => .ok ⟨Trail.place trail, some (t.here trail), slash⟩
  | name :: rest =>
    if name = "." then t.walk follow slash links trail rest
    else if name = ".." then t.walk follow slash links trail.tail rest
    else if maxNameBytes < name.utf8ByteSize then .error .nameTooLong
    else
      let place := Trail.place trail ++ [name]
      match (t.here trail).child? name with
      | none => if rest.isEmpty then .ok ⟨place, none, slash⟩ else .error .notFound
      | some (.directory entries changed) =>
        t.walk follow slash links ((name, .directory entries changed) :: trail) rest
      | some (.file content number changed) =>
        if rest.isEmpty then .ok ⟨place, some (.file content number changed), slash⟩
        else .error .notDirectory
      | some (.link target) =>
        if rest.isEmpty && !follow then .ok ⟨place, some (.link target), slash⟩
        else
          match links with
          | 0 => .error .tooManyLinks
          | links + 1 =>
            t.walk follow (slash || rest.isEmpty && target.slash) links
              (if target.absolute then [] else trail) (target.names ++ rest)
termination_by names => (links, names.length)

/-- The spot an absolute path stands for. -/
def locate (t : FileTree) (follow : Bool) (p : PathName) : Except FileError Spot :=
  if p.text.contains '\x00' then .error .nullCharacter
  else if maxPathBytes < p.text.utf8ByteSize then .error .nameTooLong
  else t.walk follow false maxLinks [] p.parts

/-- The entry at a path, a link followed or not. -/
def find (t : FileTree) (follow : Bool) (p : PathName) : Except FileError FileEntry := do
  let spot ← t.locate follow p
  match spot.entry with
  | none => throw .notFound
  | some e => if spot.slash && e.isFile then throw .notDirectory else return e

/-- Ask something of the entry at a path. Where there is none the answer is
no, unless a name was too long to tell. -/
def ask (t : FileTree) (follow : Bool) (holds : FileEntry → Bool) (p : PathName) :
    Except FileError Bool :=
  match t.find follow p with
  | .ok e => .ok (holds e)
  | .error .nameTooLong => .error .nameTooLong
  | .error _ => .ok false

/-- There is something at a path. -/
def pathExists (t : FileTree) : PathName → Except FileError Bool := t.ask true fun _ => true

/-- There is a directory at a path. -/
def isDirectory (t : FileTree) : PathName → Except FileError Bool :=
  t.ask true FileEntry.isDirectory

/-- There is a file at a path. -/
def isFile (t : FileTree) : PathName → Except FileError Bool := t.ask true FileEntry.isFile

/-- There is something at a path, if only a link that leads nowhere. -/
def isPresent (t : FileTree) (p : PathName) : Bool :=
  match t.find false p with
  | .ok _ => true
  | .error _ => false

/-- The entry at a place. -/
def entryAt (t : FileTree) (place : Place) : Option FileEntry := t.top.descend place

/-! ## Changing the tree -/

/-- The time a change of the tree has. -/
def now (t : FileTree) : Moment := .tick t.clock

/-- The tree with the entry at a place changed. -/
def modify (t : FileTree) (place : Place) (f : FileEntry → FileEntry) : FileTree :=
  ⟨t.top.modify f place, t.clock + 1⟩

/-- The tree with a new entry at a place where there is none. -/
def insert (t : FileTree) (place : Place) (e : FileEntry) : FileTree :=
  t.modify place.dropLast (.insert t.now (place.getLastD "") e)

/-- The tree without the entry at a place. -/
def erase (t : FileTree) (place : Place) : FileTree :=
  t.modify place.dropLast (.erase t.now (place.getLastD ""))

/-- The tree with a file at a place, where there is a file or nothing. A
file that is there stays the same file. -/
def putFile (t : FileTree) (place : Place) (content : FileContent) (changed : Moment) : FileTree :=
  match t.entryAt place with
  | none => t.insert place (.file content t.clock changed)
  | some _ => t.modify place fun
    | .file _ number _ => .file content number changed
    | e => e

end FileTree

/-- A change of the files that may fail. What it did before it failed is
done. -/
abbrev FileChange := ExceptT FileError (StateM FileTree)

namespace FileChange

/-- Ask the files as they are. -/
def ask {α : Type} (question : FileTree → Except FileError α) : FileChange α := do
  match question (← get) with
  | .ok a => return a
  | .error e => throw e

/-- Make a directory in a directory that exists. -/
def makeDirectory (p : PathName) : FileChange Unit := do
  let spot ← ask (·.locate false p)
  if spot.entry.isSome then throw .alreadyExists
  modify fun t => t.insert spot.place (.directory [] t.now)

/-- Whether making a directory failed for good: not if one is there. -/
def unlessDirectory (p : PathName) (e : FileError) : FileChange Unit := do
  if e = .nullCharacter then throw e
  if !(← ask (·.isDirectory p)) then throw e

/-- Make a directory unless there is one. -/
def ensureDirectory (p : PathName) : FileChange Unit :=
  tryCatch (makeDirectory p) fun e =>
    if e = .notFound then throw e else unlessDirectory p e

/-- How many directories may be missing. -/
def maxMissing : Nat := 980

/-- Make a directory by `make`, and those around it if they are missing, at
most so many of them. -/
def makeAllBy (make : PathName → FileChange Unit) (p : PathName) : Nat → FileChange Unit
  | 0 => throw .tooDeep
  | missing + 1 =>
    tryCatch (make p) fun e => do
      if e = .notFound && !p.parts.isEmpty then
        makeAllBy ensureDirectory { p with parts := p.parts.dropLast } missing
        make p
      else throw e

/-- Make all directories of a path, the last of which must not exist. -/
def makeDirectories (p : PathName) : FileChange Unit := makeAllBy makeDirectory p maxMissing

/-- Make all directories of a path that do not exist. -/
def ensureDirectories (p : PathName) : FileChange Unit := makeAllBy ensureDirectory p maxMissing

/-- Make the directories around a path that do not exist. -/
def ensureParents (p : PathName) : FileChange Unit :=
  ensureDirectories { p with parts := p.parts.dropLast }

/-- Write a file in a directory that exists. A link is written through. -/
def writeFile (p : PathName) (content : FileContent) : FileChange Unit := do
  let spot ← ask (·.locate true p)
  if spot.slash || spot.entry.any (·.isDirectory) then throw .isDirectory
  modify fun t => t.putFile spot.place content t.now

/-- A time can be kept: its seconds have at most 63 bits. -/
def isKeepable (nanoseconds : Int) : Bool :=
  let seconds := nanoseconds.fdiv 1000000000
  decide (-0x8000000000000000 ≤ seconds) && decide (seconds < 0x8000000000000000)

/-- Give a file or directory a time. -/
def touch (p : PathName) (nanoseconds : Int) : FileChange Unit := do
  if p.text.contains '\x00' then throw .nullCharacter
  if !isKeepable nanoseconds then throw .timeOutOfRange
  let _ ← ask (·.find true p)
  let spot ← ask (·.locate true p)
  modify (·.modify spot.place (.withTime (.given nanoseconds)))

/-- Write a file of some time, and make the directories around it. -/
def writeFileIn (p : PathName) (content : FileContent) (nanoseconds : Int) : FileChange Unit := do
  ensureParents p
  writeFile p content
  touch p nanoseconds

/-- Make a link, and the directories around it. -/
def makeLink (p : PathName) (target : String) : FileChange Unit := do
  ensureParents p
  if target.contains '\x00' then throw .nullCharacter
  if target = "" then throw .notFound
  if FileTree.maxPathBytes < target.utf8ByteSize then throw .nameTooLong
  let spot ← ask (·.locate false p)
  if spot.entry.isSome then throw .alreadyExists
  modify (·.insert spot.place (.link (.ofString target)))

/-- Remove an entry, and all below it. -/
def remove (p : PathName) : FileChange Unit := do
  let spot ← ask (·.locate false p)
  if spot.entry.isNone then throw .notFound
  modify (·.erase spot.place)

end FileChange

end ConstGraph
