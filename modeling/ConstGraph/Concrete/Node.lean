import ConstGraph.Text.Utf8

/-!
# Concrete trees

A concrete node is a node of the grammar's own tree: its type, the field
it fills in its parent, the rows it covers, its bytes, and all its
children, tokens included. A node is faulty if the grammar could not match
it, or made it up to go on; `firstFault?` finds the first such node in
pre-order.
-/

namespace ConstGraph

/-- A node of a concrete tree. -/
structure ConcreteNode where
  /-- The grammar's name for the node. -/
  type : String
  /-- The field the node fills in its parent. -/
  field : Option String := none
  /-- The node is a phrase rather than a token. -/
  named : Bool := true
  /-- The node was made up where the source lacks it. -/
  missing : Bool := false
  /-- The row the node starts on, from 0. -/
  startRow : Int := 0
  /-- The row the node ends on, from 0. -/
  endRow : Int := 0
  /-- The bytes of the source the node covers. -/
  bytes : List UInt8 := []
  /-- The children, tokens included. -/
  children : List ConcreteNode := []
  deriving Repr, Inhabited

namespace ConcreteNode

/-- The source the node covers, as text. -/
def text (n : ConcreteNode) : String := Text.Utf8.decodeLossy n.bytes

/-- The line the node starts on, from 1. -/
def line (n : ConcreteNode) : Int := n.startRow + 1

/-- The children that are phrases. -/
def phrases (n : ConcreteNode) : List ConcreteNode := n.children.filter (·.named)

/-- The node fills a field of its parent. -/
def fills (n : ConcreteNode) (field : String) : Bool := n.field == some field

/-- The first child that fills a field. -/
def child? (n : ConcreteNode) (field : String) : Option ConcreteNode :=
  n.children.find? (·.fills field)

/-- The phrases of a node, without the first child that fills each of some
fields. -/
def phrasesBut (n : ConcreteNode) (fields : List String) : List ConcreteNode :=
  (fields.foldl (fun cs f => cs.eraseP (·.fills f)) n.children).filter (·.named)

/-- The grammar failed at this node. -/
def isFaulty (n : ConcreteNode) : Bool := n.type == "ERROR" || n.missing

mutual

/-- The number of nodes in a tree. -/
def size : ConcreteNode → Nat
  | ⟨_, _, _, _, _, _, _, children⟩ => 1 + sizes children

/-- The number of nodes in a list of trees. -/
def sizes : List ConcreteNode → Nat
  | [] => 0
  | n :: ns => n.size + sizes ns

end

theorem size_eq (n : ConcreteNode) : n.size = 1 + sizes n.children := by
  cases n
  rw [size]

theorem sizes_append (ns ms : List ConcreteNode) : sizes (ns ++ ms) = sizes ns + sizes ms := by
  induction ns with
  | nil => simp [sizes]
  | cons n ns ih => simp [sizes, ih]; omega

theorem sizes_children_lt (n : ConcreteNode) (rest : List ConcreteNode) :
    sizes (n.children ++ rest) < sizes (n :: rest) := by
  rw [sizes_append, sizes, size_eq]
  omega

/-! ## Pre-order -/

/-- The nodes of a stack of trees in pre-order, those met so far in
reverse. -/
def preorderFrom (stack : List ConcreteNode) (met : List ConcreteNode) : List ConcreteNode :=
  match stack with
  | [] => met.reverse
  | n :: rest =>
    have := sizes_children_lt n rest
    preorderFrom (n.children ++ rest) (n :: met)
termination_by sizes stack

/-- Every node of a tree, each before its children. -/
def preorder (root : ConcreteNode) : List ConcreteNode := preorderFrom [root] []

/-- The first faulty node of a tree in pre-order. -/
def firstFault? (root : ConcreteNode) : Option ConcreteNode :=
  root.preorder.find? isFaulty

/-- The line of the first faulty node, or of the root if there is none. -/
def firstFaultLine (root : ConcreteNode) : Int :=
  (root.firstFault?.getD root).line

end ConcreteNode

end ConstGraph
