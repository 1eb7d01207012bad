import ConstGraph.Path
import ConstGraph.Syntax.Tree

/-!
# The path a constant names

`A::B::C` is a chain of constant nodes, each with its qualifier first and
its own name last. `constPath` follows the chain down the qualifiers and
puts the names after a given base, outermost first; a chain that ends in
the bare `::` starts from the root instead of the base.
-/

namespace ConstGraph

namespace SyntaxTree

/-- The identifier a tree is, if it is one. -/
def name? : SyntaxTree → Option String
  | name text => some text
  | _ => none

/-- The names along a chain of constants put before `names`, outermost
first, with the tree the chain ends in. -/
def constChain (names : List String) : SyntaxTree → List String × SyntaxTree
  | node .constant (qualifier :: rest) _ _ =>
    constChain (((qualifier :: rest).getLast?.bind name?).toList ++ names) qualifier
  | t => (names, t)

/-- The tree is the bare `::` in front of a rooted constant. -/
def isRoot (t : SyntaxTree) : Bool :=
  t.kind? == some .root

/-- The path named by a chain of constants, read in the scope `base`. A
tree that is no constant names `base` itself. -/
def constPath (t : SyntaxTree) (base : ConstPath) : ConstPath :=
  let (names, stop) := t.constChain []
  (if stop.isRoot then [Segment.rootMarker] else base) ++ names

end SyntaxTree

end ConstGraph
