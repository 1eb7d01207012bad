import ConstGraph.Document
import ConstGraph.StoreTable

/-!
# Values that do not fit together

Records read back from where they were stored may hold any values, and not
every operation works on every value. Paths are compared segment by
segment, which fails where the first two that differ are not both numbers,
both texts or both arrays; what is kept in a set may hold no array and no
object; and only texts can be joined to the text of a path.

Each operation that may fail has a test here that says when it does not,
and a form that fails where the test does. Where the test holds it is the
plain operation.
-/

namespace ConstGraph

/-- Why an operation on values of any sort fails. -/
inductive Misfit where
  /-- A value is not of a sort the operation takes. -/
  | incompatible
  /-- An integer has too many digits to be written. -/
  | overlong
  deriving DecidableEq, Repr

/-- The text of a misfit. -/
def Misfit.message : Misfit → String
  | incompatible => ""
  | overlong => overlongMessage

namespace Json

/-- The value is a number, a truth value included. -/
def isNumber : Json → Bool
  | bool _ => true
  | int _ => true
  | real _ => true
  | _ => false

/-- The value is a text. -/
def isText : Json → Bool
  | str _ => true
  | _ => false

mutual

/-- The order of two values that differ is defined. -/
def isComparable : Json → Json → Bool
  | arr xs, arr ys => areComparable xs ys
  | str _, str _ => true
  | x, y => x.isNumber && y.isNumber

/-- The order of two lists of values is defined: that of the first two that
differ is. -/
def areComparable : List Json → List Json → Bool
  | x :: xs, y :: ys => if x == y then areComparable xs ys else isComparable x y
  | _, _ => true

end

/-- The value can be kept in a set. -/
def isAtom : Json → Bool
  | arr _ => false
  | obj _ => false
  | _ => true

end Json

/-! ## Sets of records -/

namespace ConstPath

/-- The path can be kept in a set. -/
def isAtomic (p : ConstPath Json) : Bool := p.all Json.isAtom

/-- The path can be joined to a text. -/
def isTextual (p : ConstPath Json) : Bool := p.all Json.isText

/-- The path as text. -/
def joined (separator : String) (p : ConstPath Json) : Except Misfit String :=
  if p.isTextual then .ok (p.shown separator) else .error .incompatible

end ConstPath

/-- The definition can be kept in a set. -/
def Definition.isAtomic (d : Definition Json Json) : Bool :=
  d.path.isAtomic && d.file.isAtom && d.line.isAtom && d.lines.isAtom

/-- The relation can be kept in a set. -/
def Relation.isAtomic (r : Relation Json Json) : Bool :=
  r.path.isAtomic && r.caller.isAtomic && r.inMethod.isAtom && r.callee.isAtom &&
    r.file.isAtom && r.line.isAtom

/-! ## Looking up -/

namespace DefinitionStore

/-- Each path of a list and the next can be compared. -/
def neighboursFit : List (Definition Json Json) → Bool
  | a :: b :: ds => Json.areComparable a.path b.path && neighboursFit (b :: ds)
  | _ => true

/-- The definitions can be put in order. It is enough that neighbours can
be compared: whatever stands between two paths begins as far as they agree
just like them. -/
def isOrdered (s : DefinitionStore Json Json) : Bool := neighboursFit s.toList

/-- The store of definitions that can be put in order. -/
def ofValues (ds : List (Definition Json Json)) : Except Misfit (DefinitionStore Json Json) :=
  if (ofList ds).isOrdered then .ok (ofList ds) else .error .incompatible

/-- The definitions that are looked at to find a path. -/
def probes (ds : Array (Definition Json Json)) (p : ConstPath Json) (lo hi : Nat) :
    List (Definition Json Json) :=
  if lo < hi then
    let mid := (lo + hi) / 2
    match ds[mid]? with
    | none => []
    | some d =>
      d :: if (compare d.path p).isLT then probes ds p (mid + 1) hi else probes ds p lo mid
  else []
termination_by hi - lo

/-- The path can be looked up. -/
def canFind (s : DefinitionStore Json Json) (p : ConstPath Json) : Bool :=
  (probes s.entries p 0 s.size).all fun d => Json.areComparable d.path p

/-- Every definition of a path of any values, in order. -/
def findValues (s : DefinitionStore Json Json) (p : ConstPath Json) :
    Except Misfit (List (Definition Json Json)) :=
  if s.canFind p then .ok (s.findAll p) else .error .incompatible

/-- The first of some paths that is defined can be found. -/
def canFindFirst (s : DefinitionStore Json Json) : List (ConstPath Json) → Bool
  | [] => true
  | p :: ps => s.canFind p && (s.contains p || s.canFindFirst ps)

end DefinitionStore

/-- The table after a call that makes a store of definitions of any
values. -/
def StoreTable.callValues (t : StoreTable Json Json) (c : StoreCall Json Json) :
    Except Misfit (StoreTable Json Json) :=
  if (t.made c).isOrdered then .ok (t.call c) else .error .incompatible

namespace Relation

/-- What the relation refers to can be found. -/
def canResolve (r : Relation Json Json) (store : DefinitionStore Json Json) : Bool :=
  store.canFindFirst r.candidates

/-- The path a relation of any values names. -/
def resolveValue (r : Relation Json Json) (store : DefinitionStore Json Json) :
    Except Misfit (ConstPath Json) :=
  if r.canResolve store then .ok (r.resolve store) else .error .incompatible

/-- The relation can become an edge, if it makes one. -/
def canRefer (r : Relation Json Json) (store : DefinitionStore Json Json) : Bool :=
  r.canResolve store &&
    match r.arc? store with
    | none => true
    | some (caller, target) => caller.isAtomic && target.isAtomic

end Relation

/-- Each edge of a list and the next can be compared. -/
def Edge.neighboursFit : List (Edge Json) → Bool
  | a :: b :: es =>
    Json.areComparable [.arr a.caller, .arr a.target] [.arr b.caller, .arr b.target] &&
      neighboursFit (b :: es)
  | _ => true

/-- The edges in order, if they can be put in order. -/
def ReferenceGraph.orderedEdges (g : ReferenceGraph Json) : Except Misfit (List (Edge Json)) :=
  if Edge.neighboursFit g.sortedEdges then .ok g.sortedEdges else .error .incompatible

/-! ## Circular records -/

namespace CircularFlags

/-- All that would be marked can be, up to where the policy gives no
answer. -/
def canJudge (policy : CyclePolicy Json) (store : DefinitionStore Json Json) :
    List (Relation Json Json) → Bool
  | [] => true
  | r :: rs =>
    match r.arc? store with
    | none => canJudge policy store rs
    | some (caller, target) =>
      match policy.isCircular caller target with
      | .error _ => true
      | .ok false => canJudge policy store rs
      | .ok true =>
        r.isAtomic && (store.findAll target).all (·.isAtomic) && canJudge policy store rs

/-- The circular items can be found out. -/
def canMark (policy : CyclePolicy Json) (relations : List (Relation Json Json))
    (store : DefinitionStore Json Json) : Bool :=
  relations.all (·.canRefer store) &&
    canJudge (policy.prepare (.ofRelations relations store)) store relations

end CircularFlags

/-- What may be handed in to be marked as circular. -/
inductive Item where
  /-- A definition. -/
  | definition (d : Definition Json Json)
  /-- A relation. -/
  | relation (r : Relation Json Json)
  /-- Any other value. -/
  | value (v : Json)

/-- Why an item is not marked. -/
inductive MarkError where
  /-- It is neither a definition nor a relation, but of this sort. -/
  | notMarkable (sort : String)
  /-- It cannot be kept in a set. -/
  | notAtomic
  deriving DecidableEq, Repr

/-- The text of a marking error. -/
def MarkError.message : MarkError → String
  | notMarkable sort => s!"Cannot mark {sort} as circular"
  | notAtomic => ""

namespace CircularFlags

/-- Mark an item. -/
def mark (f : CircularFlags Json Json) : Item → Except MarkError (CircularFlags Json Json)
  | .definition d => if d.isAtomic then .ok (f.markDefinition d) else .error .notAtomic
  | .relation r => if r.isAtomic then .ok (f.markRelation r) else .error .notAtomic
  | .value v => .error (.notMarkable v.sort)

/-- The item is marked. -/
def hasItem (f : CircularFlags Json Json) : Item → Except Misfit Bool
  | .definition d => if d.isAtomic then .ok (f.hasDefinition d) else .error .incompatible
  | .relation r => if r.isAtomic then .ok (f.hasRelation r) else .error .incompatible
  | .value _ => .ok false

end CircularFlags

/-! ## Whole graphs -/

/-- Why no graph is put together. -/
inductive AssemblyError where
  /-- Some values do not fit. -/
  | misfit (e : Misfit)
  /-- The policy gives no answer. -/
  | policy (e : PolicyError)
  deriving DecidableEq, Repr

/-- The circular items of records of any values. -/
def CircularFlags.ofValues (policy : CyclePolicy Json) (relations : List (Relation Json Json))
    (store : DefinitionStore Json Json) : Except AssemblyError (CircularFlags Json Json) :=
  if canMark policy relations store then (ofRelations policy relations store).mapError .policy
  else .error (.misfit .incompatible)

namespace DependencyGraph

/-- The graph of results of any values. -/
def assembleValues (policy : CyclePolicy Json) (results : List (WalkResult Json Json))
    (files skipped : List String) : Except AssemblyError (DependencyGraph Json Json) :=
  let store := DefinitionStore.ofList (results.flatMap (·.definitions))
  if store.isOrdered && CircularFlags.canMark policy (results.flatMap (·.relations)) store then
    (assemble policy results files skipped).mapError .policy
  else .error (.misfit .incompatible)

/-- Every record can be asked for in a set. -/
def isAtomic (g : DependencyGraph Json Json) : Bool :=
  g.definitions.all (·.isAtomic) && g.relations.all (·.isAtomic)

/-- Every path that is shown is made of texts. -/
def isTextual (g : DependencyGraph Json Json) : Bool :=
  g.definitions.all (·.path.isTextual) && g.relations.all fun r =>
    r.path.isTextual && (g.resolve r).isTextual && r.caller.isTextual

/-- The text of the document of records of any values. -/
def exportedValues (g : DependencyGraph Json Json) (separator : String) (layout : Json.Layout) :
    Except Misfit String :=
  if !(g.isAtomic && g.isTextual) then .error .incompatible
  else if !(g.document separator).isWritable then .error .overlong
  else .ok (g.exported separator layout)

end DependencyGraph

end ConstGraph
