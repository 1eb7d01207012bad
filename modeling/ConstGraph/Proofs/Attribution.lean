import ConstGraph.Proofs.Visits

/-!
# Where a relation is attributed

A relation says which definition it stands in, which method, and which
call it is an operand of. The walk hands all three down the tree in its
context; here they are read off the nodes around the site instead, each
from the nearest one that has a say:

* the definition from the nearest class or module, by the path of the
  definition that is recorded there (`ScopeAt`);
* the method from the nearest method or marker call (`Step.method?`);
* the call from the nearest method or call with a name
  (`Step.operandOf?`).

`walk_attributes_sites` is the agreement of the two.
-/

namespace ConstGraph

namespace WalkContext

variable (infer : Inference) (ctx : WalkContext)

/-- **A sibling changes the types of locals and nothing else.** -/
theorem exists_after_eq (t : SyntaxTree) : ∃ types, ctx.after infer t = { ctx with types } := by
  unfold after
  split
  · exact ⟨_, rfl⟩
  · split
    · exact ⟨_, rfl⟩
    · split <;> exact ⟨_, rfl⟩

theorem exists_afterAll_eq (ts : List SyntaxTree) :
    ∃ types, ctx.afterAll infer ts = { ctx with types } := by
  induction ts generalizing ctx with
  | nil => exact ⟨_, rfl⟩
  | cons t ts ih =>
    obtain ⟨types, hfirst⟩ := ctx.exists_after_eq infer t
    change ∃ types, (ctx.after infer t).afterAll infer ts = { ctx with types }
    rw [hfirst]
    exact ih { ctx with types }

end WalkContext

namespace Walker

variable (w : Walker) (ctx : WalkContext)

/-! ## The context, field by field -/

/-- A site shares all but the types of locals with what is around it. -/
theorem exists_contextAt_eq (p : Site) :
    ∃ types, w.contextAt ctx p = { w.within ctx p.above with types } :=
  WalkContext.exists_afterAll_eq _ _ _

@[simp] theorem contextAt_path (p : Site) :
    (w.contextAt ctx p).path = (w.within ctx p.above).path := by
  obtain ⟨types, h⟩ := w.exists_contextAt_eq ctx p
  rw [h]

@[simp] theorem contextAt_inMethod (p : Site) :
    (w.contextAt ctx p).inMethod = (w.within ctx p.above).inMethod := by
  obtain ⟨types, h⟩ := w.exists_contextAt_eq ctx p
  rw [h]

@[simp] theorem contextAt_callee (p : Site) :
    (w.contextAt ctx p).callee = (w.within ctx p.above).callee := by
  obtain ⟨types, h⟩ := w.exists_contextAt_eq ctx p
  rw [h]

/-- Going into one more node. -/
theorem within_cons (s : Step) (above : List Step) :
    w.within ctx (s :: above) = s.enter (w.contextAt ctx ⟨s, above⟩) := rfl

/-- **The method is that of the nearest node that sets one.** -/
theorem within_inMethod (above : List Step) :
    (w.within ctx above).inMethod = (above.findSome? Step.method?).getD ctx.inMethod := by
  induction above with
  | nil => rfl
  | cons s above ih =>
    rw [within_cons, List.findSome?_cons]
    change s.method?.getD (w.contextAt ctx ⟨s, above⟩).inMethod = _
    rw [contextAt_inMethod, ih]
    cases s.method? <;> rfl

/-- **The call is that of the nearest node that sets one.** -/
theorem within_callee (above : List Step) :
    (w.within ctx above).callee = (above.findSome? Step.operandOf?).getD ctx.callee := by
  induction above with
  | nil => rfl
  | cons s above ih =>
    rw [within_cons, List.findSome?_cons]
    change s.operandOf?.getD (w.contextAt ctx ⟨s, above⟩).callee = _
    rw [contextAt_callee, ih]
    cases s.operandOf? <;> rfl

/-- **The path is the one opened by the nearest class or module.** -/
theorem within_path (above : List Step) :
    (w.within ctx above).path =
      match nearest? Step.isDefinition above with
      | none => ctx.path
      | some q => q.here.opened (w.within ctx q.above).path := by
  induction above with
  | nil => rfl
  | cons s above ih =>
    rw [within_cons, nearest?]
    change (if s.isDefinition then s.opened (w.contextAt ctx ⟨s, above⟩).path
      else (w.contextAt ctx ⟨s, above⟩).path) = _
    rw [contextAt_path]
    -- elder siblings leave the path alone, so only the node can open one
    split
    · rfl
    · exact ih

/-! ## What is found at a site -/

/-- Each definition of a walk with the class or module it was found at. -/
def definitionsAt (t : SyntaxTree) : List (Site × Definition) :=
  (t.sites.filter (·.here.isDefinition)).zip (w.walk t ctx).definitions

/-- Each relation of a walk with the mention it was found at. -/
def relationsAt (t : SyntaxTree) : List (Site × Relation) :=
  (t.sites.filter (·.here.isMention)).zip (w.walk t ctx).relations

variable {w ctx} {t : SyntaxTree} {p : Site}

theorem mem_definitionsAt {d : Definition} :
    (p, d) ∈ w.definitionsAt ctx t ↔
      p ∈ t.sites ∧ ∃ kind, p.here.definitionKind? = some kind ∧
        w.definitionOf (w.contextAt ctx p) p.here kind = d := by
  rw [definitionsAt, definitions_walk, mem_zip_filter_filterMap (by simp [Step.isDefinition]),
    Option.map_eq_some_iff]

theorem mem_relationsAt {r : Relation} :
    (p, r) ∈ w.relationsAt ctx t ↔
      p ∈ t.sites ∧ ∃ m, p.here.mention? = some m ∧
        w.relationOf (w.contextAt ctx p) p.here m = r := by
  rw [relationsAt, relations_walk, mem_zip_filter_filterMap (by simp [Step.isMention]),
    Option.map_eq_some_iff]

variable (w ctx t)

/-- The path of the scope inside some nodes: that of the definition found
at the nearest class or module, or the one the walk starts in. -/
def ScopeAt (above : List Step) (path : ConstPath) : Prop :=
  match nearest? Step.isDefinition above with
  | none => path = ctx.path
  | some q => ∃ d, (q, d) ∈ w.definitionsAt ctx t ∧ path = d.path

variable {w ctx t}

/-- **A site stands in the scope around it**: the nearest class or module
is a site too, and what is found there has the path the context holds. -/
theorem scopeAt_within (hp : p ∈ t.sites) :
    w.ScopeAt ctx t p.above (w.within ctx p.above).path := by
  rw [ScopeAt, within_path]
  cases hnearest : nearest? Step.isDefinition p.above with
  | none => rfl
  | some q =>
    obtain ⟨hsuffix, hdefinition⟩ := suffix_of_nearest? hnearest
    obtain ⟨kind, hkind⟩ := Option.isSome_iff_exists.1 hdefinition
    have hq : q ∈ t.sites := SyntaxTree.mem_sites_of_suffix hp hsuffix
    refine ⟨_, mem_definitionsAt.2 ⟨hq, kind, hkind, rfl⟩, ?_⟩
    simp [definitionOf]

end Walker

/-! ## The rules of attribution -/

/-- What a mention makes of the relation found at it: the path and the
method called. -/
inductive Site.Yields (w : Walker) (ctx : WalkContext) (p : Site) (r : Relation) : Prop
  /-- A constant names the path it spells, as an operand of the call
  around it. -/
  | constant : p.here.mention? = some .constant → r.path = p.here.tree.constPath [] →
      r.callee = (p.above.findSome? Step.operandOf?).getD ctx.callee → Yields w ctx p r
  /-- A call without receiver is on the scope it stands in. -/
  | onSelf {callee : String} : p.here.mention? = some (.onSelf callee) → r.path = r.caller →
      r.callee = callee → Yields w ctx p r
  /-- A call on a local is on the type the local has there, if any. -/
  | onLocal {x : Option String} {callee : String} : p.here.mention? = some (.onLocal x callee) →
      r.path = ((x.map (w.contextAt ctx p).types.lookup).getD .unknown).path →
      r.callee = callee → Yields w ctx p r
  /-- A call on the result of a call is on no known type. -/
  | onResult {callee : String} : p.here.mention? = some (.onResult callee) →
      r.path = ["Untyped"] → r.callee = callee → Yields w ctx p r

namespace Walker

variable (w : Walker) (ctx : WalkContext) (t : SyntaxTree)

/-- The relation is attributed as the nodes around its site ask for. -/
structure Attributed (p : Site) (r : Relation) : Prop where
  /-- Its caller is the definition found at the nearest class or module. -/
  caller : w.ScopeAt ctx t p.above r.caller
  /-- Its method is that of the nearest method or marker call. -/
  inMethod : r.inMethod = (p.above.findSome? Step.method?).getD ctx.inMethod
  /-- Its path and callee are those of the mention. -/
  yields : p.Yields w ctx r

/-- The definition has the path its name spells in the scope around it. -/
def Placed (p : Site) (d : Definition) : Prop :=
  ∃ outer, w.ScopeAt ctx t p.above outer ∧
    d.path = ((p.here.children.headD .absent).constPath outer).unroot

variable {w ctx t}

theorem yields_relationOf {p : Site} {m : Mention} (h : p.here.mention? = some m) :
    p.Yields w ctx (w.relationOf (w.contextAt ctx p) p.here m) := by
  cases m with
  | constant =>
    refine .constant h rfl ?_
    change (w.contextAt ctx p).callee = _
    rw [contextAt_callee, within_callee]
  | onSelf callee => exact .onSelf h rfl rfl
  | onLocal x callee => exact .onLocal h rfl rfl
  | onResult callee => exact .onResult h rfl rfl

variable (w ctx t)

/-- **A walk attributes what it finds to what is around it.** Every
relation is matched with the site it was found at, and names the
definition found at the nearest class or module around that site, the
nearest method or marker call, and the path and method of the mention.
Every definition in turn has the path of its name in the scope around
it. -/
theorem walk_attributes_sites :
    List.Forall₂ (w.Attributed ctx t) (t.sites.filter (·.here.isMention))
        (w.walk t ctx).relations ∧
      List.Forall₂ (w.Placed ctx t) (t.sites.filter (·.here.isDefinition))
        (w.walk t ctx).definitions := by
  constructor
  · rw [relations_walk]
    refine forall₂_filter_filterMap (by simp [Step.isMention]) fun p hp r hr => ?_
    obtain ⟨m, hm, rfl⟩ := Option.map_eq_some_iff.1 hr
    refine ⟨?_, ?_, yields_relationOf hm⟩
    · simpa [relationOf] using scopeAt_within hp
    · simpa [relationOf] using w.within_inMethod ctx p.above
  · rw [definitions_walk]
    refine forall₂_filter_filterMap (by simp [Step.isDefinition]) fun p hp d hd => ?_
    obtain ⟨kind, -, rfl⟩ := Option.map_eq_some_iff.1 hd
    exact ⟨_, scopeAt_within hp, by simp [definitionOf, Step.opened]⟩

end Walker

end ConstGraph
