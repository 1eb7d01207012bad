import ConstGraph.Concrete.Locals
import ConstGraph.Concrete.Node
import ConstGraph.Syntax.Tree

/-!
# From concrete trees to syntax trees

The grammar does not tell a read of a local variable from a call of a
method without arguments: both are identifiers. The conversion declares
every parameter, assigned name, rescued error and loop variable as it
meets it, so an identifier becomes a local read exactly where its name has
been declared. Bodies of methods, classes and modules start with no local;
blocks see the locals around them and keep their own to themselves.

`convertNode` is the conversion of one node, given the conversion of the nodes
below it; `convert` ties the knot up to a nesting limit. A node is built
after its children, so of two faults the inner one is reported.
-/

namespace ConstGraph

/-- Why a concrete tree is not converted. -/
inductive ConversionError where
  /-- A node ends before it starts. -/
  | span (e : SpanError)
  /-- The tree is nested too deeply. -/
  | tooDeep
  deriving DecidableEq, Repr

/-- A conversion reads and extends the locals in scope. -/
abbrev Conversion := StateT LocalScope (Except ConversionError)

/-- What the conversion makes of a type of node. -/
inductive Construct where
  /-- A module definition. -/
  | moduleDef
  /-- A class definition. -/
  | classDef
  /-- A method definition. -/
  | method
  /-- A method definition on an explicit receiver. -/
  | singletonMethod
  /-- The singleton class of a value, opened. -/
  | singletonClass
  /-- A bare constant. -/
  | constant
  /-- A constant or method behind `::`. -/
  | qualified
  /-- A call. -/
  | call
  /-- An identifier. -/
  | identifier
  /-- An assignment. -/
  | assignment
  /-- An assignment through an operator, such as `+=`. -/
  | operatorAssignment
  /-- The parameters of a method, block or lambda. -/
  | parameters
  /-- A block or lambda. -/
  | block
  /-- The name a rescued error is given. -/
  | rescued
  /-- A loop over a pattern. -/
  | loop
  /-- A statement whose identifiers name methods. -/
  | methodNames
  /-- Anything else. -/
  | plain
  deriving DecidableEq, Repr

/-- The construct a type of node stands for. -/
def Construct.ofType : String → Construct
  | "module" => moduleDef
  | "class" => classDef
  | "method" => method
  | "singleton_method" => singletonMethod
  | "singleton_class" => singletonClass
  | "constant" => constant
  | "scope_resolution" => qualified
  | "call" => call
  | "identifier" => identifier
  | "assignment" => assignment
  | "operator_assignment" => operatorAssignment
  | "method_parameters" => parameters
  | "block_parameters" => parameters
  | "lambda_parameters" => parameters
  | "block" => block
  | "do_block" => block
  | "lambda" => block
  | "exception_variable" => rescued
  | "for" => loop
  | "alias" => methodNames
  | "undef" => methodNames
  | _ => plain

namespace ConcreteNode

/-- The construct a node stands for. -/
def construct (n : ConcreteNode) : Construct := .ofType n.type

/-- The node says nothing: a comment, or the end mark of a text. -/
def isSilent (n : ConcreteNode) : Bool := n.type == "comment" || n.type == "heredoc_end"

/-- The phrases of a node that say something, without the first child that
fills each of some fields. -/
def expressions (n : ConcreteNode) (without : List String) : List ConcreteNode :=
  (n.phrasesBut without).filter (!·.isSilent)

end ConcreteNode

namespace Conversion

/-! ## Building nodes -/

/-- The lines of a node. -/
def span (n : ConcreteNode) : Conversion LineSpan :=
  match LineSpan.ofLines n.line (n.endRow + 1) with
  | .ok s => pure s
  | .error e => throw (.span e)

/-- A tagged node on the lines of a concrete one. -/
def tagged (n : ConcreteNode) (tag : String) (children : List SyntaxTree) :
    Conversion SyntaxTree := do
  return .node .other children (← span n) tag

/-- A node of no particular kind, tagged by its type. -/
def plain (n : ConcreteNode) (children : List SyntaxTree) : Conversion SyntaxTree :=
  tagged n n.type children

/-- A node of a kind of its own. -/
def build (n : ConcreteNode) (kind : NodeKind) (children : List SyntaxTree) :
    Conversion SyntaxTree := do
  return .node kind children (← span n) ""

/-- The text of a child that may not be there. -/
def textOf : Option ConcreteNode → String
  | none => ""
  | some n => n.text

/-! ## Locals -/

/-- Declare a local. -/
def declare (x : String) : Conversion Unit := modify (·.declare x)

/-- Convert in a scope inside the current one. -/
def inChild {α : Type} (act : Conversion α) : Conversion α := fun s =>
  (act s.child).map fun r => (r.1, s)

/-- Convert in a scope that sees no local. -/
def inFresh {α : Type} (act : Conversion α) : Conversion α := fun s =>
  (act .empty).map fun r => (r.1, s)

/-- Declare every identifier of a tree. -/
def declareAll : Nat → ConcreteNode → Conversion Unit
  | 0, _ => throw .tooDeep
  | depth + 1, n =>
    match n.construct with
    | .identifier => declare n.text
    | _ => n.phrases.forM (declareAll depth)

/-! ## Lists of nodes -/

/-- Convert nodes one after the other, each to any number of trees. -/
def gather (f : ConcreteNode → Conversion (List SyntaxTree)) :
    List ConcreteNode → Conversion (List SyntaxTree)
  | [] => pure []
  | n :: ns => do
    let ts ← f n
    let us ← gather f ns
    return ts ++ us

section

variable (conv : ConcreteNode → Conversion SyntaxTree)

/-- Convert nodes one after the other. -/
def each : List ConcreteNode → Conversion (List SyntaxTree) :=
  gather fun n => do return [← conv n]

/-- Convert a child that may not be there. -/
def optional : Option ConcreteNode → Conversion SyntaxTree
  | none => pure .absent
  | some n => conv n

/-- Convert the body of a definition: the statements of its body, or of the
definition itself, without the parts named by some fields. -/
def body (n : ConcreteNode) (without : List String) : Conversion (List SyntaxTree) :=
  match n.child? "body" with
  | none => each conv (n.expressions without)
  | some b =>
    if b.type == "body_statement" then each conv (b.expressions [])
    else return [← conv b]

/-! ## Definitions -/

/-- Convert a module: its name, then its body without any local. -/
def moduleDef (n : ConcreteNode) : Conversion SyntaxTree := do
  let name ← optional conv (n.child? "name")
  let body ← inFresh (body conv n ["name"])
  build n .moduleDef (name :: body)

/-- The expression a class inherits from. -/
def superclass? (n : ConcreteNode) : Option ConcreteNode :=
  (n.child? "superclass").bind fun s => (s.expressions []).head?

/-- Convert a class: its name and superclass, then its body without any
local. -/
def classDef (n : ConcreteNode) : Conversion SyntaxTree := do
  let name ← optional conv (n.child? "name")
  let superclass ← optional conv (superclass? n)
  let body ← inFresh (body conv n ["name", "superclass"])
  build n .classDef (name :: superclass :: body)

/-- Convert an opened singleton class: its value, then its body without any
local. -/
def singletonClass (n : ConcreteNode) : Conversion SyntaxTree := do
  let value ← optional conv (n.child? "value")
  let body ← inFresh (body conv n ["value"])
  plain n (value :: body)

/-- Convert the parameters and the body of a method, in one scope. -/
def signature (n : ConcreteNode) (without : List String) : Conversion (List SyntaxTree) := do
  let parameters ← optional conv (n.child? "parameters")
  let body ← body conv n without
  return parameters :: body

/-- Convert a method. -/
def method (n : ConcreteNode) : Conversion SyntaxTree := do
  let rest ← inFresh (signature conv n ["name", "parameters"])
  build n .methodDef (.name (textOf (n.child? "name")) :: rest)

/-- Convert a method on an explicit receiver, which stands outside it. -/
def singletonMethod (n : ConcreteNode) : Conversion SyntaxTree := do
  let receiver ← optional conv (n.child? "object")
  let rest ← inFresh (signature conv n ["object", "name", "parameters"])
  build n .singletonDef (receiver :: .name (textOf (n.child? "name")) :: rest)

/-! ## Expressions -/

/-- Convert the qualifier of a `::`, which is the root if nothing stands
before it. -/
def qualifier (n : ConcreteNode) : Conversion SyntaxTree :=
  match n.child? "scope" with
  | none => build n .root []
  | some q => conv q

/-- Convert a constant or method behind `::`. -/
def qualified (n : ConcreteNode) : Conversion SyntaxTree :=
  match n.child? "name" with
  | some name =>
    match name.construct with
    | .constant => do
      let q ← qualifier conv n
      build n .constant [q, .name name.text]
    | _ => do plain n (← each conv (n.expressions []))
  | none => do plain n (← each conv (n.expressions []))

/-- Convert an identifier: a local read if it is declared, else a call of
the method it names. -/
def identifier (n : ConcreteNode) : Conversion SyntaxTree := do
  if (← get).contains n.text then build n .localRead [.name n.text]
  else build n .call [.absent, .name n.text]

/-- Convert a call and its arguments. A call without a method name calls
`call`. -/
def send (n : ConcreteNode) (method? : Option ConcreteNode) : Conversion SyntaxTree := do
  let receiver ← optional conv (n.child? "receiver")
  let arguments ← match n.child? "arguments" with
    | none => pure []
    | some a => each conv (a.expressions [])
  let name := match method? with
    | none => "call"
    | some m => m.text
  build n .call (receiver :: .name name :: arguments)

/-- Convert a call with its block, if it has one. -/
def call (n : ConcreteNode) : Conversion SyntaxTree := do
  let method? := n.child? "method"
  if method?.any (·.type == "super") then
    tagged n "super" (← each conv (n.expressions ["method"]))
  else
    let sent ← send conv n method?
    match n.child? "block" with
    | none => return sent
    | some b => tagged n "block" (sent :: (← conv b).children)

/-! ## Assignments -/

/-- Declare an identifier as the target of an assignment elsewhere. -/
def target (n : ConcreteNode) : Conversion SyntaxTree := do
  declare n.text
  build n .localAssign [.name n.text, .absent]

/-- Convert the targets of a multiple assignment, nested ones in place. -/
def targets : Nat → ConcreteNode → Conversion (List SyntaxTree)
  | 0, _ => throw .tooDeep
  | depth + 1, n => n.phrases |> gather fun c =>
    if c.construct = .identifier then return [← target c]
    else if c.type == "rest_assignment" || c.type == "destructured_left_assignment" then
      targets depth c
    else return [← conv c]

/-- Convert an assignment. A local is declared before its value is
converted. -/
def assignment (depth : Nat) (n : ConcreteNode) : Conversion SyntaxTree := do
  let right := n.child? "right"
  match n.child? "left" with
  | none =>
    let value ← optional conv right
    plain n [.absent, value]
  | some left =>
    match left.type with
    | "identifier" =>
      declare left.text
      let value ← optional conv right
      build n .localAssign [.name left.text, value]
    | "constant" =>
      let value ← optional conv right
      tagged n "casgn" [.absent, .name left.text, value]
    | "scope_resolution" =>
      let q ← qualifier conv left
      let value ← optional conv right
      tagged n "casgn" [q, .name (textOf (left.child? "name")), value]
    | "left_assignment_list" =>
      let ts ← targets conv depth left
      let value ← optional conv right
      tagged n "masgn" (ts ++ [value])
    | _ =>
      let t ← conv left
      let value ← optional conv right
      plain n [t, value]

/-- Convert an assignment through an operator. -/
def operatorAssignment (n : ConcreteNode) : Conversion SyntaxTree := do
  let t ← match n.child? "left" with
    | none => pure .absent
    | some left => if left.construct = .identifier then target left else conv left
  let value ← optional conv (n.child? "right")
  plain n [t, value]

/-- Declare a parameter and convert its default value. -/
def parameter (depth : Nat) (n : ConcreteNode) : Conversion (List SyntaxTree) := do
  if n.construct = .identifier then
    declare n.text
    return []
  else if n.type == "destructured_parameter" then
    declareAll depth n
    return []
  else
    if let some name := n.child? "name" then declare name.text
    match n.child? "value" with
    | none => return []
    | some value => return [← conv value]

/-! ## Any node -/

/-- Convert a node, given how to convert the nodes below it and how much
deeper the tree may go. -/
def convertNode (depth : Nat) (n : ConcreteNode) : Conversion SyntaxTree :=
  match n.construct with
  | .moduleDef => moduleDef conv n
  | .classDef => classDef conv n
  | .method => method conv n
  | .singletonMethod => singletonMethod conv n
  | .singletonClass => singletonClass conv n
  | .constant => build n .constant [.absent, .name n.text]
  | .qualified => qualified conv n
  | .call => call conv n
  | .identifier => identifier n
  | .assignment => assignment conv depth n
  | .operatorAssignment => operatorAssignment conv n
  | .parameters => do plain n (← gather (parameter conv depth) n.phrases)
  | .block => do plain n (← inChild (each conv (n.expressions [])))
  | .rescued => do
    declareAll depth n
    plain n []
  | .loop => do
    if let some pattern := n.child? "pattern" then declareAll depth pattern
    plain n (← each conv (n.expressions ["pattern"]))
  | .methodNames => plain n []
  | .plain => do plain n (← each conv (n.expressions []))

end

/-- Convert a node of a tree that goes no deeper than a number of levels. -/
def convert : Nat → ConcreteNode → Conversion SyntaxTree
  | 0, _ => throw .tooDeep
  | depth + 1, n => convertNode (convert depth) depth n

/-- The deepest nesting that is converted. It stands for the room on a stack,
of which a construct takes more or less, and so does not tell at which depth
exactly conversion gives up: the number is this library's own. What is said
of all trees is said for every depth, or of this limit however large it
is. -/
def nestingLimit : Nat := 1000

end Conversion

/-- The syntax tree of a concrete tree, with no local in scope. -/
def ConcreteNode.toSyntax (root : ConcreteNode) : Except ConversionError SyntaxTree :=
  (Conversion.convert Conversion.nestingLimit root .empty).map (·.1)

end ConstGraph
