import ConstGraph.Cycle
import ConstGraph.Log

/-!
# The dependency graph of a project

The definitions and relations of all files put together, with what only
shows once all are known: what each relation refers to, and which of them
are circular.
-/

namespace ConstGraph

/-- The definitions and relations of a project. -/
structure DependencyGraph (σ : Type := String) (ν : Type := Int) [Segment σ] where
  /-- The definitions. -/
  store : DefinitionStore σ ν
  /-- The relations, file by file. -/
  relations : List (Relation σ ν)
  /-- What is circular. -/
  flags : CircularFlags σ ν
  /-- The files, skipped ones included. -/
  files : List String := []
  /-- The files that contributed nothing. -/
  skipped : List String := []

namespace DependencyGraph

variable {σ ν : Type} [Segment σ] [BEq ν]

/-- The definitions in order. -/
def definitions (g : DependencyGraph σ ν) : List (Definition σ ν) := g.store.toList

/-- The path a relation refers to. -/
def resolve (g : DependencyGraph σ ν) (r : Relation σ ν) : ConstPath σ := r.resolve g.store

/-- The circular relations. -/
def circularRelations (g : DependencyGraph σ ν) : List (Relation σ ν) :=
  g.relations.filter g.flags.hasRelation

/-- The reference graph. -/
def references (g : DependencyGraph σ ν) : ReferenceGraph σ := .ofRelations g.relations g.store

/-- The graph of the results of all files under a policy. -/
def assemble (policy : CyclePolicy σ) (results : List (WalkResult σ ν))
    (files skipped : List String) : Except PolicyError (DependencyGraph σ ν) :=
  let store := DefinitionStore.ofList (results.flatMap (·.definitions))
  let relations := results.flatMap (·.relations)
  (CircularFlags.ofRelations policy relations store).map fun flags =>
    ⟨store, relations, flags, files, skipped⟩

/-- What the log says of an assembled graph. -/
def record (g : DependencyGraph σ ν) : LogRecord :=
  ⟨LogLevel.debug, "rubymap.analyzer.graph_builder",
    s!"Assembled {g.store.size} definitions, {g.relations.length} relations, " ++
      s!"{g.flags.size} circular"⟩

end DependencyGraph

end ConstGraph
