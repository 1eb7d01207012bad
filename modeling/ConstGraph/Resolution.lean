import ConstGraph.Store

/-!
# Resolution

What a relation refers to. A constant is looked up in the scope it stands
in and then in each scope around that, innermost first; the first path
that is defined wins. A path written from the root, or standing outside
every definition, can only mean itself.
-/

namespace ConstGraph

/-- The scopes around a point, innermost first, the empty one last. -/
def ConstPath.scopes {σ : Type} (caller : ConstPath σ) : List (ConstPath σ) :=
  (List.range (caller.length + 1)).reverse.map (caller.take ·)

namespace Relation

variable {σ ν : Type} [Segment σ]

/-- The path a relation names if nothing closer is defined. -/
def globalPath (r : Relation σ ν) : ConstPath σ :=
  if r.isAbsolute then r.path.unroot else r.path

/-- The paths a relation may name, most specific first. -/
def candidates (r : Relation σ ν) : List (ConstPath σ) :=
  if r.isAbsolute then [r.path.unroot] else r.caller.scopes.map (· ++ r.path)

/-- The path a relation names: the first candidate that is defined, or the
global one. -/
def resolve (r : Relation σ ν) (store : DefinitionStore σ ν) : ConstPath σ :=
  (r.candidates.find? store.contains).getD r.globalPath

end Relation

end ConstGraph
