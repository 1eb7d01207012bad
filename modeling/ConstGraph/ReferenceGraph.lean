import ConstGraph.Resolution

/-!
# The reference graph

A directed graph on constant paths. Each relation that stands in a
definition and names a path adds an edge from the one to the other; the
weight of an edge counts the relations that made it.

`reachable` explores the graph layer by layer and `components` collects
the classes of mutually reachable nodes with more than one member.
-/

namespace ConstGraph

/-- An edge with the number of relations it stands for. -/
structure Edge (σ : Type := String) where
  /-- Where the edge starts. -/
  caller : ConstPath σ
  /-- Where the edge ends. -/
  target : ConstPath σ
  /-- How many relations made it. -/
  weight : Nat
  deriving BEq, ReflBEq, LawfulBEq, Repr

variable {σ ν : Type} [Segment σ]

namespace Edge

/-- The edge joins these two paths. -/
def joins (e : Edge σ) (caller target : ConstPath σ) : Bool :=
  e.caller == caller && e.target == target

/-- Edges are ordered by where they start, then by where they end. -/
def order (a b : Edge σ) : Ordering :=
  (compare a.caller b.caller).then (compare a.target b.target)

end Edge

/-- The edges a relation stands for: one, unless it stands outside every
definition or names nothing. -/
def Relation.arc? (store : DefinitionStore σ ν) (r : Relation σ ν) :
    Option (ConstPath σ × ConstPath σ) :=
  let target := r.resolve store
  if r.caller.isEmpty || target.isEmpty then none else some (r.caller, target)

/-- A directed graph on constant paths with weighted edges. -/
structure ReferenceGraph (σ : Type := String) where
  /-- The nodes, each once, in the order they were added. -/
  nodes : List (ConstPath σ)
  /-- The edges, each once, in the order they were added. -/
  edges : List (Edge σ)
  deriving BEq, ReflBEq, LawfulBEq, Repr

namespace ReferenceGraph

/-- A graph without nodes. -/
def empty : ReferenceGraph σ := ⟨[], []⟩

/-- Add a node unless it is there. -/
def insertNode (p : ConstPath σ) (nodes : List (ConstPath σ)) : List (ConstPath σ) :=
  if nodes.contains p then nodes else nodes ++ [p]

/-- Add one to the weight of an edge, or add the edge. -/
def insertEdge (caller target : ConstPath σ) : List (Edge σ) → List (Edge σ)
  | [] => [⟨caller, target, 1⟩]
  | e :: es =>
    if e.joins caller target then { e with weight := e.weight + 1 } :: es
    else e :: insertEdge caller target es

/-- The graph with a node. -/
def addNode (g : ReferenceGraph σ) (p : ConstPath σ) : ReferenceGraph σ :=
  { g with nodes := insertNode p g.nodes }

/-- The graph with an edge, and its ends as nodes. -/
def addEdge (g : ReferenceGraph σ) (caller target : ConstPath σ) : ReferenceGraph σ :=
  ⟨insertNode target (insertNode caller g.nodes), insertEdge caller target g.edges⟩

/-- The graph of some edges. -/
def ofArcs (arcs : List (ConstPath σ × ConstPath σ)) : ReferenceGraph σ :=
  arcs.foldl (fun g a => g.addEdge a.1 a.2) empty

/-- The graph of the relations of a project. -/
def ofRelations (relations : List (Relation σ ν)) (store : DefinitionStore σ ν) :
    ReferenceGraph σ :=
  ofArcs (relations.filterMap (Relation.arc? store))

/-- The edges by where they start and where they end. -/
def sortedEdges (g : ReferenceGraph σ) : List (Edge σ) :=
  g.edges.mergeSort fun a b => (a.order b).isLE

/-! ## Components -/

/-- The ends of the edges that start in some nodes. -/
def successors (g : ReferenceGraph σ) (ps : List (ConstPath σ)) : List (ConstPath σ) :=
  (g.edges.filter (ps.contains ·.caller)).map (·.target)

/-- The nodes among `unseen` that a layer leads to. -/
def nextLayer (g : ReferenceGraph σ) (layer unseen : List (ConstPath σ)) : List (ConstPath σ) :=
  let reached := g.successors layer
  unseen.filter (reached.contains ·)

/-- The nodes among `unseen` that a layer does not lead to. -/
def stillUnseen (g : ReferenceGraph σ) (layer unseen : List (ConstPath σ)) : List (ConstPath σ) :=
  let reached := g.successors layer
  unseen.filter (!reached.contains ·)

theorem length_stillUnseen_lt (g : ReferenceGraph σ) (layer unseen : List (ConstPath σ))
    (h : g.nextLayer layer unseen ≠ []) :
    (g.stillUnseen layer unseen).length < unseen.length := by
  obtain ⟨p, hp⟩ := List.exists_mem_of_ne_nil _ h
  obtain ⟨hu, hs⟩ := List.mem_filter.1 hp
  exact List.length_filter_lt_length_iff_exists.2 ⟨p, hu, by simpa using hs⟩

/-- The nodes among `unseen` that are reached from `layer` in one step or
more, in layers: those the layer leads to, then those these lead to. -/
def explore (g : ReferenceGraph σ) (layer unseen : List (ConstPath σ)) : List (ConstPath σ) :=
  let next := g.nextLayer layer unseen
  if h : next = [] then []
  else
    have := g.length_stillUnseen_lt layer unseen h
    next ++ g.explore next (g.stillUnseen layer unseen)
termination_by unseen.length

/-- The nodes reached from a path in one step or more. -/
def reachable (g : ReferenceGraph σ) (p : ConstPath σ) : List (ConstPath σ) :=
  g.explore [p] g.nodes

/-- For every node the nodes it reaches. -/
def reachTable (g : ReferenceGraph σ) : List (ConstPath σ × List (ConstPath σ)) :=
  g.nodes.map fun p => (p, g.reachable p)

/-- The nodes that reach a node and are reached from it. -/
def component (table : List (ConstPath σ × List (ConstPath σ))) (p : ConstPath σ)
    (reached : List (ConstPath σ)) : List (ConstPath σ) :=
  (table.filter fun row => reached.contains row.1 && row.2.contains p).map (·.1)

/-- The classes of mutually reachable nodes with more than one member,
once for each member. -/
def components (g : ReferenceGraph σ) : List (List (ConstPath σ)) :=
  let table := g.reachTable
  (table.map fun row => component table row.1 row.2).filter (1 < ·.length)

end ReferenceGraph

end ConstGraph
