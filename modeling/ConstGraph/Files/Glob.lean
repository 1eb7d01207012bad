import ConstGraph.Files.FileTree

/-!
# Glob patterns

A pattern names files below a directory, name by name. In a name `*`
stands for any text, `?` for any character and brackets for one character
of a set; `**` stands for any number of directories. Upper and lower case
differ, and hidden files are files.
-/

namespace ConstGraph

/-- A piece of a name pattern. -/
inductive GlobToken where
  /-- Any text. -/
  | star
  /-- Any character. -/
  | any
  /-- This character. -/
  | char (c : Char)
  /-- A character inside these ranges, or outside them. -/
  | oneOf (negated : Bool) (ranges : List (Char × Char))
  deriving DecidableEq, Repr

namespace GlobToken

/-- A token other than `star` stands for this character. -/
def accepts (c : Char) : GlobToken → Bool
  | star => false
  | any => true
  | char d => c == d
  | oneOf negated ranges => (ranges.any fun r => r.1 ≤ c && c ≤ r.2) != negated

/-- The ends of a text, the longest one first. -/
def ends : List Char → List (List Char)
  | [] => [[]]
  | c :: cs => (c :: cs) :: ends cs

/-- The ends of a name that are left when a token has stood for what comes
before them. The longest one comes first, there and here. -/
def advance (rests : List (List Char)) : GlobToken → List (List Char)
  | star => (rests.head?.map ends).getD []
  | token => rests.filterMap fun
    | [] => none
    | c :: cs => if token.accepts c then some cs else none

/-- The pieces stand for a name. -/
def matchName (tokens : List GlobToken) (name : List Char) : Bool :=
  (tokens.foldl advance [name]).contains []

/-! ## Brackets -/

/-- Cut the text of a set at the hyphens that stand for a range. A hyphen
counts as one unless it is among the first `keep` characters. -/
def cutAtHyphens (keep : Nat) (piece : List Char) : List Char → List (List Char)
  | [] => [piece.reverse]
  | c :: cs =>
    match keep with
    | keep + 1 => cutAtHyphens keep (c :: piece) cs
    | 0 => if c = '-' then piece.reverse :: cutAtHyphens 2 [] cs else cutAtHyphens 0 (c :: piece) cs

/-- A hyphen at the end stands for itself. -/
def keepLastHyphen : List (List Char) → List (List Char)
  | [] => []
  | [p] => [p]
  | [p, []] => [p ++ ['-']]
  | p :: ps => p :: keepLastHyphen ps

/-- Join two pieces whose range holds nothing, from the end. -/
def dropEmptyRanges : List (List Char) → List (List Char)
  | [] => []
  | p :: ps =>
    match p.getLast?, dropEmptyRanges ps with
    | some a, (b :: q) :: qs => if b < a then (p.dropLast ++ q) :: qs else p :: (b :: q) :: qs
    | _, qs => p :: qs

/-- The ranges of pieces: each character by itself, and what lies between
two pieces. -/
def rangesOf : List (List Char) → List (Char × Char)
  | [] => []
  | [p] => p.map fun c => (c, c)
  | p :: q :: ps =>
    let between := match p.getLast?, q.head? with
      | some a, some b => [(a, b)]
      | _, _ => []
    p.map (fun c => (c, c)) ++ between ++ rangesOf (q :: ps)

/-- The set between two brackets. -/
def setOf (text : List Char) : GlobToken :=
  let keep := if text.head? == some '!' then 2 else 1
  match dropEmptyRanges (keepLastHyphen (cutAtHyphens keep [] text)) with
  | ('!' :: p) :: ps => .oneOf true (rangesOf (p :: ps))
  | ps => .oneOf false (rangesOf ps)

/-- The text between two brackets and the text after them. A closing bracket
that comes first belongs to the set. -/
def bracketed? (cs : List Char) : Option (List Char × List Char) :=
  let sign := match cs with
    | '!' :: _ => ['!']
    | _ => []
  let cs := cs.drop sign.length
  let first := match cs with
    | ']' :: _ => [']']
    | _ => []
  let cs := cs.drop first.length
  match cs.dropWhile (· != ']') with
  | [] => none
  | _ :: rest => some (sign ++ first ++ cs.takeWhile (· != ']'), rest)

/-- The pieces of a name pattern, of which at most so many. -/
def tokens : Nat → List Char → List GlobToken
  | 0, _ => []
  | _, [] => []
  | fuel + 1, '*' :: cs => .star :: tokens fuel cs
  | fuel + 1, '?' :: cs => .any :: tokens fuel cs
  | fuel + 1, '[' :: cs =>
    match bracketed? cs with
    | some (text, rest) => setOf text :: tokens fuel rest
    | none => .char '[' :: tokens fuel cs
  | fuel + 1, c :: cs => .char c :: tokens fuel cs

end GlobToken

/-- A name of a pattern. -/
inductive GlobPart where
  /-- Any number of directories. -/
  | directories
  /-- A name that is given. -/
  | exact (name : String)
  /-- A name that fits a pattern. -/
  | fitting (tokens : List GlobToken)
  deriving DecidableEq, Repr

/-- Why a pattern is refused. -/
inductive GlobError where
  /-- The pattern is empty. -/
  | empty
  /-- The pattern starts at the root. -/
  | absolute
  /-- `**` is part of a name. -/
  | gluedStars
  /-- The pattern names nothing. -/
  | nameless
  /-- The pattern names nothing, as a directory. -/
  | namelessDirectory
  deriving DecidableEq, Repr

/-- The text of a pattern error. -/
def GlobError.message : GlobError → String
  | empty => "Unacceptable pattern: ''"
  | absolute => "Non-relative patterns are unsupported"
  | gluedStars => "Invalid pattern: '**' can only be an entire path component"
  | nameless => ""
  | namelessDirectory => ""

/-- A pattern for files below a directory. -/
structure Glob where
  /-- The names. -/
  parts : List GlobPart
  /-- Only directories are asked for. -/
  directoriesOnly : Bool
  deriving DecidableEq, Repr

namespace Glob

/-- Two stars stand side by side. -/
def hasTwoStars : List Char → Bool
  | '*' :: '*' :: _ => true
  | _ :: cs => hasTwoStars cs
  | [] => false

/-- The name has a piece that is not given. -/
def isPattern (cs : List Char) : Bool := cs.any fun c => c == '*' || c == '?' || c == '['

/-- A name of a pattern. -/
def part (name : String) : Except GlobError GlobPart :=
  let cs := name.toList
  if name = "**" then .ok .directories
  else if hasTwoStars cs then .error .gluedStars
  else if isPattern cs then .ok (.fitting (GlobToken.tokens cs.length cs))
  else .ok (.exact name)

/-- The pattern of a text. -/
def ofString (text : String) : Except GlobError Glob := do
  let p := PathName.ofString text
  let slash := text.toList.getLast? == some '/'
  if text = "" then throw .empty
  if p.isAbsolute then throw .absolute
  if p.parts.isEmpty then throw (if slash then .namelessDirectory else .nameless)
  return ⟨← p.parts.mapM part, slash⟩

/-- The paths below a path that fit some names. -/
def select (t : FileTree) (directoriesOnly : Bool) :
    List GlobPart → PathName → Except FileError (List PathName)
  | [], p => .ok [p]
  | .directories :: parts, p => do
    let below := (← t.find true p).directoriesBelow.map fun names =>
      { p with parts := p.parts ++ names }
    return (← (p :: below).mapM (select t directoriesOnly parts)).flatten
  | .exact name :: parts, p => do
    let wanted ← if parts.isEmpty && !directoriesOnly then t.pathExists (p.child name)
      else t.isDirectory (p.child name)
    if wanted then select t directoriesOnly parts (p.child name) else return []
  | .fitting tokens :: parts, p => do
    let fitting := (← t.find true p).entries.filter fun (name, _) =>
      GlobToken.matchName tokens name.toList
    let found ← fitting.mapM fun (name, _) => do
      let wanted ← if parts.isEmpty && !directoriesOnly then pure true
        else t.isDirectory (p.child name)
      if wanted then select t directoriesOnly parts (p.child name) else return []
    return found.flatten

/-- The paths below a directory that fit the pattern; none if it is no
directory. -/
def paths (g : Glob) (t : FileTree) (root : PathName) : Except FileError (List PathName) := do
  if ← t.isDirectory root then select t g.directoriesOnly g.parts root else return []

end Glob

end ConstGraph
