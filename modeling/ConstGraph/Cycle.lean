import ConstGraph.ReferenceGraph
import ConstGraph.Text.Quoted

/-!
# Circular references

A policy decides which references are circular. It may look at the whole
reference graph first (`prepare`), and then answers for pairs of paths.
What it keeps is the last graph it was shown and nothing else.

`CircularFlags` is the outcome for a project: the circular relations, and
the definitions they refer to.
-/

namespace ConstGraph

/-- A rule for circular references. -/
inductive CyclePolicy (σ : Type := String) where
  /-- Circular if both ends lie in one of these classes. -/
  | scc (classes : List (List (ConstPath σ)))
  /-- Circular if the target encloses the caller. -/
  | ancestry
  /-- Circular if some member says so. -/
  | combined (members : List (CyclePolicy σ))
  /-- A rule that was never laid down. -/
  | unspecified
  deriving Repr, Inhabited

/-- Why a policy gives no answer. -/
inductive PolicyError where
  /-- No policy has this name. -/
  | unknown (name : String)
  /-- The policy has no rule. -/
  | unspecified
  deriving DecidableEq, Repr

variable {σ ν : Type} [Segment σ] [BEq ν]

namespace CyclePolicy

/-- The policy that asks for a way back, before it has seen a graph. -/
def strong : CyclePolicy σ := scc []

/-- The name of a policy. -/
def name : CyclePolicy σ → String
  | scc _ => "scc"
  | ancestry => "ancestry"
  | combined _ => "combined"
  | unspecified => ""

/-- The policies that have a name of their own, by name. -/
def named : List (CyclePolicy σ) := [ancestry, combined [ancestry, strong], strong]

/-- The policy of a name. -/
def ofName (name : String) : Except PolicyError (CyclePolicy σ) :=
  match named.find? (·.name == name) with
  | some p => .ok p
  | none => .error (.unknown name)

mutual

/-- Show a policy the whole graph. -/
def prepare (g : ReferenceGraph σ) : CyclePolicy σ → CyclePolicy σ
  | scc _ => scc g.components
  | ancestry => ancestry
  | combined ps => combined (prepareAll g ps)
  | unspecified => unspecified

/-- Show each policy the whole graph. -/
def prepareAll (g : ReferenceGraph σ) : List (CyclePolicy σ) → List (CyclePolicy σ)
  | [] => []
  | p :: ps => p.prepare g :: prepareAll g ps

end

mutual

/-- A reference from `caller` to `target` is circular. -/
def isCircular (caller target : ConstPath σ) : CyclePolicy σ → Except PolicyError Bool
  | scc classes => .ok (classes.any fun c => c.contains caller && c.contains target)
  | ancestry => .ok (target.encloses caller)
  | combined ps => isCircularAny caller target ps
  | unspecified => .error .unspecified

/-- Some policy finds the reference circular. They are asked in turn until
one does. -/
def isCircularAny (caller target : ConstPath σ) : List (CyclePolicy σ) → Except PolicyError Bool
  | [] => .ok false
  | p :: ps =>
    match p.isCircular caller target with
    | .ok true => .ok true
    | .ok false => isCircularAny caller target ps
    | .error e => .error e

end

end CyclePolicy

namespace PolicyError

/-- The text of a policy error. -/
def message : PolicyError → String
  | unknown name =>
    let names := ", ".intercalate ((CyclePolicy.named : List CyclePolicy).map CyclePolicy.name)
    s!"Unknown cycle policy: {Text.quoted name} (expected one of {names})"
  | unspecified => ""

end PolicyError

/-- The circular relations and definitions, each once. -/
structure CircularFlags (σ : Type := String) (ν : Type := Int) where
  /-- The definitions some circular relation refers to. -/
  definitions : List (Definition σ ν)
  /-- The circular relations. -/
  relations : List (Relation σ ν)
  deriving BEq, ReflBEq, LawfulBEq, Repr

namespace CircularFlags

/-- Nothing is circular. -/
def empty : CircularFlags σ ν := ⟨[], []⟩

/-- Add an item unless it is there. -/
def insert {α : Type} [BEq α] (x : α) (xs : List α) : List α :=
  if xs.contains x then xs else xs ++ [x]

/-- Mark a definition. -/
def markDefinition (f : CircularFlags σ ν) (d : Definition σ ν) : CircularFlags σ ν :=
  { f with definitions := insert d f.definitions }

/-- Mark a relation. -/
def markRelation (f : CircularFlags σ ν) (r : Relation σ ν) : CircularFlags σ ν :=
  { f with relations := insert r f.relations }

/-- The definition is marked. -/
def hasDefinition (f : CircularFlags σ ν) (d : Definition σ ν) : Bool := f.definitions.contains d

/-- The relation is marked. -/
def hasRelation (f : CircularFlags σ ν) (r : Relation σ ν) : Bool := f.relations.contains r

/-- The number of distinct circular relations. -/
def size (f : CircularFlags σ ν) : Nat := f.relations.length

/-- Two outcomes mark the same items. -/
def agrees (f g : CircularFlags σ ν) : Bool :=
  f.definitions.length == g.definitions.length && f.relations.length == g.relations.length &&
    f.definitions.all g.hasDefinition && f.relations.all g.hasRelation

/-- Mark a relation, and every definition of the path it names, if the
policy finds it circular. -/
def judge (policy : CyclePolicy σ) (store : DefinitionStore σ ν) (f : CircularFlags σ ν)
    (r : Relation σ ν) : Except PolicyError (CircularFlags σ ν) :=
  match r.arc? store with
  | none => .ok f
  | some (caller, target) =>
    (policy.isCircular caller target).map fun circular =>
      if circular then (store.findAll target).foldl markDefinition (f.markRelation r) else f

/-- Judge relations one after the other. -/
def judgeAll (policy : CyclePolicy σ) (store : DefinitionStore σ ν) :
    CircularFlags σ ν → List (Relation σ ν) → Except PolicyError (CircularFlags σ ν)
  | f, [] => .ok f
  | f, r :: rs =>
    match judge policy store f r with
    | .ok f' => judgeAll policy store f' rs
    | .error e => .error e

/-- The circular items of a project under a policy that has seen its
reference graph. -/
def ofRelations (policy : CyclePolicy σ) (relations : List (Relation σ ν))
    (store : DefinitionStore σ ν) : Except PolicyError (CircularFlags σ ν) :=
  judgeAll (policy.prepare (.ofRelations relations store)) store empty relations

end CircularFlags

end ConstGraph
