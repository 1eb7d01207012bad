import ConstGraph.Cache.Tables
import ConstGraph.Concrete.Node
import ConstGraph.Files.PathName

/-!
# Files, directories and links

What stands in a directory: a file with its content, a directory with its
entries, or a symbolic link. Files and directories know when they were
last changed. A file also has a number of its own, by which it is still
the same file after its content has been replaced.
-/

namespace ConstGraph

/-- Why a path does not lead to what is asked for. -/
inductive FileError where
  /-- There is nothing there. -/
  | notFound
  /-- A name on the way is no directory. -/
  | notDirectory
  /-- There is a directory where a file is asked for. -/
  | isDirectory
  /-- There is something there already. -/
  | alreadyExists
  /-- There are too many links on the way. -/
  | tooManyLinks
  /-- A name or a path is too long. -/
  | nameTooLong
  /-- A path holds a null character. -/
  | nullCharacter
  /-- A time is beyond all that can be kept. -/
  | timeOutOfRange
  /-- Too many directories are missing. -/
  | tooDeep
  deriving DecidableEq, Repr

/-- When something was changed: at a given time, or at some tick of the
clock, none of which is ever given. -/
inductive Moment where
  /-- A time in nanoseconds. -/
  | given (nanoseconds : Int)
  /-- A tick of the clock. -/
  | tick (count : Nat)
  deriving DecidableEq, Repr, Inhabited

namespace Moment

/-- When something was changed, as it is compared: in seconds as a binary
fraction, so that two times are told apart only as far as that goes. -/
def stamp : Moment → Stamp
  | given n =>
    let seconds := Float.ofInt (n.fdiv 1000000000)
    let nanoseconds := Float.ofInt (n.fmod 1000000000)
    .seconds (seconds + 1e-9 * nanoseconds).toBits
  | tick count => .tick count

end Moment

/-- What a file holds. -/
inductive FileContent where
  /-- A source, and the tree the grammar makes of it. -/
  | source (text : String) (tree : ConcreteNode)
  /-- So many null bytes. -/
  | zeros (count : Nat)
  /-- A text. -/
  | text (text : String)
  /-- The tables of a cache. -/
  | tables (t : CacheTables)
  deriving Repr, Inhabited

namespace FileContent

/-- The size in bytes of a file of tables: six pages. -/
def tablesSize : Nat := 6 * 4096

/-- The size in bytes. -/
def size : FileContent → Nat
  | .source s _ => s.utf8ByteSize
  | .zeros count => count
  | .text s => s.utf8ByteSize
  | .tables _ => tablesSize

/-- The tree the grammar makes of the content. -/
def tree : FileContent → ConcreteNode
  | .source _ root => root
  | _ => { type := "program" }

end FileContent

/-- Where a link leads. -/
structure LinkTarget where
  /-- It leads on from the root, and not from the directory of the link. -/
  absolute : Bool
  /-- The names it leads along, single and double dots among them. -/
  names : List String
  /-- It ends in a slash, and so leads to a directory or nowhere. -/
  slash : Bool
  deriving DecidableEq, Repr

/-- Where a link with some text leads. -/
def LinkTarget.ofString (s : String) : LinkTarget where
  absolute := s.toList.head? == some '/'
  names := ((PathName.pieces s.toList).map String.ofList).filter (· != "")
  slash := s.toList.getLast? == some '/'

/-- An entry of a directory. -/
inductive FileEntry where
  /-- A file with its number. -/
  | file (content : FileContent) (number : Nat) (changed : Moment)
  /-- A directory and what stands in it. -/
  | directory (entries : List (String × FileEntry)) (changed : Moment)
  /-- A link. -/
  | link (target : LinkTarget)
  deriving Repr, Inhabited

/-- A place in a file tree: the names that lead to it from the root, without
links and dots. -/
abbrev Place := List String

namespace FileEntry

/-- The entry is a directory. -/
def isDirectory : FileEntry → Bool
  | directory .. => true
  | _ => false

/-- The entry is a file. -/
def isFile : FileEntry → Bool
  | file .. => true
  | _ => false

/-- The size of an entry in bytes; that of a directory is a block. -/
def size : FileEntry → Nat
  | file content _ _ => content.size
  | _ => 4096

/-- When the entry was changed. -/
def changed : FileEntry → Moment
  | file _ _ changed => changed
  | directory _ changed => changed
  | link _ => .given 0

/-- The entry as if it had been changed at another time. -/
def withTime (changed : Moment) : FileEntry → FileEntry
  | file content number _ => file content number changed
  | directory entries _ => directory entries changed
  | e => e

/-- What stands in a directory. -/
def entries : FileEntry → List (String × FileEntry)
  | directory entries _ => entries
  | _ => []

/-- The entry of a name in a directory. -/
def child? (e : FileEntry) (name : String) : Option FileEntry := e.entries.lookup name

/-- The entry at a place below an entry. -/
def descend (e : FileEntry) : Place → Option FileEntry
  | [] => some e
  | name :: rest =>
    match e.child? name with
    | some inner => inner.descend rest
    | none => none

/-- Entries with the entry of a name changed. -/
def replace (name : String) (f : FileEntry → FileEntry) :
    List (String × FileEntry) → List (String × FileEntry) :=
  List.map fun (n, e) => if n == name then (n, f e) else (n, e)

/-- Change the entry at a place below an entry. -/
def modify (f : FileEntry → FileEntry) : Place → FileEntry → FileEntry
  | [], e => f e
  | name :: rest, directory entries changed =>
    directory (replace name (modify f rest) entries) changed
  | _ :: _, e => e

/-- A directory with an entry of a new name. It is changed thereby. -/
def insert (now : Moment) (name : String) (e : FileEntry) : FileEntry → FileEntry
  | directory entries _ => directory (entries ++ [(name, e)]) now
  | other => other

/-- A directory without the entry of a name. It is changed thereby. -/
def erase (now : Moment) (name : String) : FileEntry → FileEntry
  | directory entries _ => directory (entries.filter (·.1 != name)) now
  | other => other

mutual

/-- The places of the directories below an entry, from there. -/
def directoriesBelow : FileEntry → List Place
  | directory entries _ => directoriesAmong entries
  | _ => []

/-- The places of the directories among entries and below them. -/
def directoriesAmong : List (String × FileEntry) → List Place
  | [] => []
  | (name, e) :: rest =>
    let here := if e.isDirectory then [[name]] else []
    here ++ (e.directoriesBelow.map (name :: ·)) ++ directoriesAmong rest

end

end FileEntry

end ConstGraph
