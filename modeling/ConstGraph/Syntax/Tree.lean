import ConstGraph.Number.Digits

/-!
# Syntax trees

The tree the walk reads: ten kinds of node, each with its children in
order, the lines it spans, and a tag that keeps the grammar's own word
for a node of kind `other`. A child is a node, a name, or absent.

A span never ends before it starts; `LineSpan.ofLines` refuses one that
would, so every node of every tree covers at least one line.
-/

namespace ConstGraph

/-- The kinds of node the walk tells apart. -/
inductive NodeKind where
  /-- `module A … end`: the name, then the body. -/
  | moduleDef
  /-- `class A < B … end`: the name, the superclass, then the body. -/
  | classDef
  /-- `def m … end`: the method name, then parameters and body. -/
  | methodDef
  /-- `def x.m … end`: the receiver, the method name, then the rest. -/
  | singletonDef
  /-- A constant: its qualifier, then its name. -/
  | constant
  /-- The bare `::` a rooted constant starts with. -/
  | root
  /-- A call: the receiver, the method name, then the arguments. -/
  | call
  /-- A local variable read. -/
  | localRead
  /-- A local variable assignment: the name, then the value. -/
  | localAssign
  /-- Anything else. -/
  | other
  deriving DecidableEq, Repr

namespace NodeKind

/-- The short name a kind is written by. -/
def label : NodeKind → String
  | moduleDef => "module"
  | classDef => "class"
  | methodDef => "def"
  | singletonDef => "defs"
  | constant => "const"
  | root => "cbase"
  | call => "send"
  | localRead => "lvar"
  | localAssign => "lvasgn"
  | other => "other"

/-- Every kind. -/
def all : List NodeKind :=
  [moduleDef, classDef, methodDef, singletonDef, constant, root, call, localRead, localAssign,
    other]

/-- The kind a short name stands for. -/
def ofLabel? (text : String) : Option NodeKind :=
  all.find? (·.label == text)

theorem ofLabel?_label (k : NodeKind) : ofLabel? k.label = some k := by
  cases k <;> decide

end NodeKind

/-- The lines from `first` to `last`, both included. -/
structure LineSpan where
  /-- The line the span starts on. -/
  first : Int
  /-- The line the span ends on. -/
  last : Int
  /-- A span covers at least one line. -/
  first_le_last : first ≤ last
  deriving DecidableEq, Repr

/-- Why a span is refused. -/
inductive SpanError where
  /-- The span would end before it starts. -/
  | reversed (first last : Int)
  deriving DecidableEq, Repr

/-- The text of a span error, unless a line is too long to be written. -/
def SpanError.message : SpanError → String
  | reversed first last =>
    if isOverlong first || isOverlong last then overlongMessage
    else s!"end_line {last} precedes start_line {first}"

namespace LineSpan

/-- The span between two lines, unless they are reversed. -/
def ofLines (first last : Int) : Except SpanError LineSpan :=
  if h : first ≤ last then .ok ⟨first, last, h⟩ else .error (.reversed first last)

/-- The number of lines covered. -/
def count (s : LineSpan) : Int := s.last - s.first + 1

end LineSpan

/-- A syntax tree: a node, a name, or nothing. -/
inductive SyntaxTree where
  /-- An optional child that is not there. -/
  | absent
  /-- An identifier as written. -/
  | name (text : String)
  /-- A node with its children in order. -/
  | node (kind : NodeKind) (children : List SyntaxTree) (span : LineSpan) (tag : String)
  deriving Repr, Inhabited

namespace SyntaxTree

/-- The tree is a node rather than a name or a gap. -/
def isNode : SyntaxTree → Bool
  | node .. => true
  | _ => false

/-- The children of a node; a name or a gap has none. -/
def children : SyntaxTree → List SyntaxTree
  | node _ cs _ _ => cs
  | _ => []

/-- The kind of a node. -/
def kind? : SyntaxTree → Option NodeKind
  | node k _ _ _ => some k
  | _ => none

/-- The first child, absent where there is none. -/
def firstChild (t : SyntaxTree) : SyntaxTree :=
  t.children.headD absent

/-- The children that are nodes. -/
def childNodes (t : SyntaxTree) : List SyntaxTree :=
  t.children.filter isNode

/-- How deep two trees may be for their comparison. -/
def comparisonLimit : Nat := 240

mutual

/-- Two trees agree in kinds, names, gaps and spans; tags are not compared.
The kind comes first, the children next and the span last. There is no
answer if trees more than `depth` deep have to be compared. -/
def agreesWithin (depth : Nat) : SyntaxTree → SyntaxTree → Option Bool
  | absent, absent => some true
  | name a, name b => some (a == b)
  | node k cs s _, node k' cs' s' _ =>
    match depth with
    | 0 => none
    | depth + 1 =>
      if k = k' then (agreeWithin depth cs cs').map (· && s == s') else some false
  | _, _ => some false

/-- Two lists of trees agree one by one, up to the first that do not. -/
def agreeWithin (depth : Nat) : List SyntaxTree → List SyntaxTree → Option Bool
  | [], [] => some true
  | t :: ts, t' :: ts' =>
    match agreesWithin depth t t' with
    | some true => agreeWithin depth ts ts'
    | other => other
  | _, _ => some false

end

/-- Two trees agree in all but their tags, if they are not too deep to be
compared. -/
def agrees? (t t' : SyntaxTree) : Option Bool := agreesWithin comparisonLimit t t'

mutual

/-- The number of trees in a tree, itself included. -/
def size : SyntaxTree → Nat
  | absent => 1
  | name _ => 1
  | node _ cs _ _ => 1 + sizes cs

/-- The number of trees in a list of trees. -/
def sizes : List SyntaxTree → Nat
  | [] => 0
  | t :: ts => t.size + sizes ts

end

theorem size_pos (t : SyntaxTree) : 0 < t.size := by
  cases t <;> (rw [size]; omega)

theorem sizes_append (ts us : List SyntaxTree) : sizes (ts ++ us) = sizes ts + sizes us := by
  induction ts with
  | nil => simp [sizes]
  | cons t ts ih => simp [sizes, ih]; omega

/-- Leaving trees out makes a list no larger. -/
theorem sizes_le_of_sublist {ts us : List SyntaxTree} (h : ts.Sublist us) :
    sizes ts ≤ sizes us := by
  induction h with
  | slnil => exact Nat.le_refl _
  | cons _ _ ih => simp only [sizes]; omega
  | cons_cons _ _ ih => simp only [sizes]; omega

end SyntaxTree

end ConstGraph
