import ConstGraph.Text.Case

/-!
# File paths

A path is where it starts (here, at the root, or at the second root that
exactly two slashes name) and the names that lead on from there. Empty
names and single dots say nothing and are dropped; double dots are kept.

Names are texts. A name of bytes that are not UTF-8 is in no path.
-/

namespace ConstGraph

/-- A file path. -/
structure PathName where
  /-- The slashes the path starts with: none, one or two. -/
  root : String
  /-- The names, outermost first. -/
  parts : List String
  deriving DecidableEq, Repr

namespace PathName

/-- Where a text starts: three slashes or more count as one. -/
def rootOf : List Char → String
  | '/' :: '/' :: '/' :: _ => "/"
  | '/' :: '/' :: _ => "//"
  | '/' :: _ => "/"
  | _ => ""

/-- The pieces of a text between slashes. -/
def pieces : List Char → List (List Char)
  | [] => [[]]
  | '/' :: rest => [] :: pieces rest
  | c :: rest =>
    match pieces rest with
    | [] => [[c]]
    | p :: ps => (c :: p) :: ps

/-- The names of a text: its pieces without empty ones and single dots. -/
def names (cs : List Char) : List String :=
  ((pieces cs).map String.ofList).filter fun s => s != "" && s != "."

/-- The path of a text. -/
def ofString (s : String) : PathName := ⟨rootOf s.toList, names s.toList⟩

/-- The path as text. -/
def text (p : PathName) : String :=
  if p.root = "" && p.parts.isEmpty then "." else p.root ++ "/".intercalate p.parts

/-- The path starts at a root. -/
def isAbsolute (p : PathName) : Bool := p.root != ""

/-- A path taken from another one, unless it starts at a root itself. -/
def join (base p : PathName) : PathName :=
  if p.isAbsolute then p else ⟨base.root, base.parts ++ p.parts⟩

/-- A file or directory in a directory. -/
def child (p : PathName) (name : String) : PathName := ⟨p.root, p.parts ++ [name]⟩

/-- All names of the path, where it starts included. -/
def components (p : PathName) : List String :=
  if p.isAbsolute then p.root :: p.parts else p.parts

/-- Paths are ordered name by name. -/
def order (p q : PathName) : Ordering := compare p.components q.components

/-- The last name. -/
def name (p : PathName) : String := p.parts.getLastD ""

/-- The ending of a name: from its last dot, unless the name starts or ends
with that dot. -/
def suffixOf (name : List Char) : List Char :=
  let tail := name.reverse.takeWhile (· != '.')
  if tail.isEmpty || name.length ≤ tail.length + 1 then [] else '.' :: tail.reverse

/-- The ending of the last name. -/
def suffix (p : PathName) : String := String.ofList (suffixOf p.name.toList)

/-- The endings of Ruby sources. -/
def rubySuffixes : List String := [".rb", ".rake", ".ru", ".gemspec"]

/-- The path names a Ruby source, in upper or lower case. -/
def isRuby (p : PathName) : Bool := rubySuffixes.contains (Text.lower p.suffix)

end PathName

end ConstGraph
