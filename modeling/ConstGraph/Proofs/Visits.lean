import ConstGraph.Proofs.Sites
import ConstGraph.Proofs.Walk
import Mathlib.Data.List.Forall2

/-!
# What a walk records at each site

A visit is described by what the node is and the context it is visited in.
The node decides whether it opens a definition (`Step.definitionKind?`) or
mentions something (`Step.mention?`), and what changes for its children
(`Step.enter`); `visit_eq` says that this is all a visit does.

The context of a site follows from the nodes around it and the siblings
before them (`Walker.contextAt`), so a walk is a list of sites with a
record at some of them: `records_eq_filterMap_sites`. Which sites these
are depends on neither the context the walk starts in nor the inference
(`walk_reports_sites`).
-/

namespace ConstGraph

/-- How a node mentions something. -/
inductive Mention where
  /-- It is a constant. -/
  | constant
  /-- It calls a method without a receiver. -/
  | onSelf (callee : String)
  /-- It calls a method on a local variable, which may lack a name. -/
  | onLocal (receiver : Option String) (callee : String)
  /-- It calls a method on what another call returns. -/
  | onResult (callee : String)
  deriving DecidableEq, Repr

/-- The method a mention calls, if it is a call. -/
def Mention.callee? : Mention → Option String
  | constant => none
  | onSelf callee | onLocal _ callee | onResult callee => some callee

namespace Step

/-- The receiver and the method of a call, if the method has a name. -/
def call? (s : Step) : Option (SyntaxTree × String) :=
  match s.kind, s.children with
  | .call, receiver :: .name callee :: _ => if callee = "" then none else some (receiver, callee)
  | _, _ => none

/-- The method of a call that marks its arguments. -/
def marker? (s : Step) : Option String :=
  match s.call? with
  | some (.absent, callee) => if callee ∈ Walker.markers then some callee else none
  | _ => none

/-- What the node opens, if it is a class or module. -/
def definitionKind? (s : Step) : Option DefinitionKind :=
  match s.kind with
  | .moduleDef => some .ofModule
  | .classDef => some .ofClass
  | _ => none

/-- The node is a class or module. -/
def isDefinition (s : Step) : Bool := s.definitionKind?.isSome

/-- The path a class or module opens inside `outer`. -/
def opened (s : Step) (outer : ConstPath) : ConstPath :=
  ((s.children.headD .absent).constPath outer).unroot

/-- How the node mentions something: as a constant, or as a call with a
method name that is no marker and whose receiver does not report itself. -/
def mention? (s : Step) : Option Mention :=
  match s.kind, s.call? with
  | .constant, _ => some .constant
  | _, some (.absent, callee) =>
    if callee ∈ Walker.markers then none else some (.onSelf callee)
  | _, some (.node .localRead names _ _, callee) =>
    some (.onLocal (names.headD .absent).name? callee)
  | _, some (.node .call _ _ _, callee) => some (.onResult callee)
  | _, _ => none

/-- The node mentions something. -/
def isMention (s : Step) : Bool := s.mention?.isSome

/-- What a node mentions in a context. -/
def mentioned (s : Step) (ctx : WalkContext) : Mention → ConstPath
  | .constant => s.tree.constPath []
  | .onSelf _ => ctx.path
  | .onLocal x _ => ((x.map ctx.types.lookup).getD .unknown).path
  | .onResult _ => InferredType.unknown.path

/-- The method a node puts its children into: its own if it defines one,
and the marker if it is a marker call. -/
def method? (s : Step) : Option String :=
  match s.kind with
  | .methodDef => some ((s.children.headD .absent).name?.getD "")
  | .singletonDef => some ((s.children.tail.headD .absent).name?.getD "")
  | _ => s.marker?

/-- The call a node makes its children operands of: none (written as the
empty name) inside a method or a marker call, else the call it is. -/
def operandOf? (s : Step) : Option String :=
  match s.kind, s.marker? with
  | .methodDef, _ | .singletonDef, _ | _, some _ => some ""
  | _, none => s.call?.map Prod.snd

/-- No local variable is known to the children of a class, module or
method. -/
def hidesLocals (s : Step) : Bool :=
  match s.kind with
  | .moduleDef | .classDef | .methodDef | .singletonDef => true
  | _ => false

/-- The context inside a node that stands in `ctx`. -/
def enter (s : Step) (ctx : WalkContext) : WalkContext where
  path := if s.isDefinition then s.opened ctx.path else ctx.path
  -- a class or module inside a method does not end the method
  inMethod := s.method?.getD ctx.inMethod
  callee := s.operandOf?.getD ctx.callee
  types := if s.hidesLocals then .empty else ctx.types

/-- A class or module is no mention. -/
theorem mention?_of_isDefinition {s : Step} (h : s.isDefinition) : s.mention? = none := by
  obtain ⟨kind, children, span, tag, elders⟩ := s
  cases kind with
  | moduleDef => rfl
  | classDef => rfl
  | _ => cases h

/-- A marker call puts its operands into the marker and makes them
operands of nothing. -/
theorem enter_of_marker {s : Step} {callee : String} (hkind : s.kind = .call)
    (h : s.marker? = some callee) (ctx : WalkContext) :
    s.enter ctx = { ctx with inMethod := callee, callee := "" } := by
  simp [enter, isDefinition, definitionKind?, method?, operandOf?, hidesLocals, hkind, h]

/-- Any other call with a method name makes its operands its own. -/
theorem enter_of_call {s : Step} {receiver : SyntaxTree} {callee : String} (hkind : s.kind = .call)
    (hcall : s.call? = some (receiver, callee)) (h : s.marker? = none) (ctx : WalkContext) :
    s.enter ctx = { ctx with callee } := by
  simp [enter, isDefinition, definitionKind?, method?, operandOf?, hidesLocals, hkind, hcall, h]

end Step

namespace Walker

variable (w : Walker) (ctx : WalkContext)

/-! ## One visit -/

/-- The definition a node is in a context. -/
def definitionOf (s : Step) (kind : DefinitionKind) : Definition :=
  ⟨s.opened ctx.path, kind, w.file, s.span.first, s.span.last - s.span.first + 1⟩

/-- The relation a node is in a context. -/
def relationOf (s : Step) (m : Mention) : Relation :=
  ⟨s.mentioned ctx m, ctx.path, ctx.inMethod, m.callee?.getD ctx.callee, w.file, s.span.first⟩

/-- The record a node is in a context, if it is one. -/
def recordOf? (s : Step) : Option Record :=
  (s.definitionKind?.map fun k => .definition (w.definitionOf ctx s k)).or
    (s.mention?.map fun m => .relation (w.relationOf ctx s m))

/-- **What visiting a call does.** The five shapes of a call choose among
its children in different ways, but what they leave out is never a node. -/
theorem visitCall_eq (s : Step) (hkind : s.kind = .call) :
    w.visitCall s.children s.span ctx =
      ⟨w.recordOf? ctx s, w.siblings s.children (s.enter ctx)⟩ := by
  obtain ⟨kind, children, span, tag, elders⟩ := s
  obtain rfl : kind = .call := hkind
  match children with
  -- without a method name only the children matter
  | [] | [_] | _ :: .absent :: _ | _ :: .node .. :: _ => rfl
  | receiver :: .name callee :: operands =>
    by_cases hempty : callee = ""
    · subst hempty
      rfl
    · have hcall : Step.call? ⟨.call, receiver :: .name callee :: operands, span, tag, elders⟩ =
          some (receiver, callee) := if_neg hempty
      unfold visitCall
      simp only [if_neg hempty]
      -- the receiver decides: none, a local, another call, or anything else
      cases receiver with
      | absent =>
        by_cases hmarker : callee ∈ markers
        · rw [Step.enter_of_marker rfl (by rw [Step.marker?, hcall]; exact if_pos hmarker)]
          simp only [if_pos hmarker, recordOf?, Step.mention?, hcall]
          rfl
        · rw [Step.enter_of_call rfl hcall (by rw [Step.marker?, hcall]; exact if_neg hmarker)]
          simp only [if_neg hmarker, recordOf?, Step.mention?, hcall]
          rfl
      | name text =>
        rw [Step.enter_of_call rfl hcall (by rw [Step.marker?, hcall])]
        simp only [recordOf?, Step.mention?, hcall]
        rfl
      | node kind names span tag =>
        rw [Step.enter_of_call rfl hcall (by rw [Step.marker?, hcall])]
        cases kind <;> simp only [recordOf?, Step.mention?, hcall] <;> rfl

/-- **All that a visit does** is to report the node and to go on inside it
with its children, each after its elder siblings. -/
theorem visit_eq (s : Step) :
    w.visit s.kind s.children s.span ctx =
      ⟨w.recordOf? ctx s, w.siblings (s.kind.entered s.children) (s.enter ctx)⟩ := by
  obtain ⟨kind, children, span, tag, elders⟩ := s
  cases kind with
  | call => exact w.visitCall_eq ctx ⟨.call, children, span, tag, elders⟩ rfl
  | constant => cases children <;> rfl
  | _ => rfl

/-! ## The loop, record by record -/

/-- What was found before the loop comes first. -/
theorem run_found (stack : List (SyntaxTree × WalkContext)) (found older : List Record) :
    w.run stack (found ++ older) = older.reverse ++ w.run stack found := by
  fun_induction run w stack found with
  | case1 found => rw [run, List.reverse_append]
  | case2 found kind children span tag ctx rest v hlt ih =>
    rw [run, ← List.append_assoc]
    exact ih
  | case3 found ctx rest hlt ih =>
    rw [run]
    exact ih
  | case4 found text ctx rest hlt ih =>
    rw [run]
    exact ih

/-- The upper part of the stack is reported before the lower part. -/
theorem run_append (upper lower : List (SyntaxTree × WalkContext)) (found : List Record) :
    w.run (upper ++ lower) found = w.run upper found ++ w.run lower [] := by
  fun_induction run w upper found with
  | case1 found => exact w.run_found lower [] found
  | case2 found kind children span tag ctx rest v hlt ih =>
    rw [List.cons_append, run, ← List.append_assoc]
    exact ih
  | case3 found ctx rest hlt ih =>
    rw [List.cons_append, run]
    exact ih
  | case4 found text ctx rest hlt ih =>
    rw [List.cons_append, run]
    exact ih

/-- What is on the stack is reported one after the other, the topmost
first. -/
theorem run_eq_flatMap (stack : List (SyntaxTree × WalkContext)) :
    w.run stack [] = stack.flatMap fun x => w.records x.1 x.2 := by
  induction stack with
  | nil => rw [run, List.reverse_nil, List.flatMap_nil]
  | cons x rest ih =>
    rw [List.flatMap_cons, ← ih]
    exact w.run_append [x] rest []

theorem records_of_not_isNode {t : SyntaxTree} (h : t.isNode = false) : w.records t ctx = [] := by
  cases t with
  | node kind children span tag => cases h
  | _ => simp [records, run]

/-- **The records of a node** are its own, then those of the children it
goes on to. -/
theorem records_node (s : Step) :
    w.records s.tree ctx =
      (w.recordOf? ctx s).toList ++
        (w.siblings (s.kind.entered s.children) (s.enter ctx)).flatMap
          fun x => w.records x.1 x.2 := by
  -- there is at most one record, so its place in the reversed list is its own
  have hown : (w.recordOf? ctx s).toList.reverse = (w.recordOf? ctx s).toList := by
    cases w.recordOf? ctx s <;> rfl
  rw [records, Step.tree, run, w.visit_eq ctx s, List.append_nil, List.append_nil,
    ← run_eq_flatMap]
  calc w.run (w.siblings (s.kind.entered s.children) (s.enter ctx)) (w.recordOf? ctx s).toList
      = (w.recordOf? ctx s).toList.reverse ++ w.run (w.siblings _ (s.enter ctx)) [] :=
        w.run_found _ [] _
    _ = (w.recordOf? ctx s).toList ++ w.run (w.siblings _ (s.enter ctx)) [] := by rw [hown]

end Walker

/-! ## The context of a site -/

/-- The context some siblings leave behind. -/
def WalkContext.afterAll (ctx : WalkContext) (infer : Inference) (ts : List SyntaxTree) :
    WalkContext :=
  ts.foldl (fun c t => c.after infer t) ctx

namespace Walker

variable (w : Walker) (ctx : WalkContext)

/-- The context inside some nodes, the innermost first, in a walk that
starts in `ctx`. -/
def within : List Step → WalkContext
  | [] => ctx
  | s :: above => s.enter ((within above).afterAll w.infer s.elders)

/-- The context of a site in a walk that starts in `ctx`. -/
def contextAt (p : Site) : WalkContext :=
  (w.within ctx p.above).afterAll w.infer p.here.elders

/-- The record at a site in a walk that starts in `ctx`, if there is one. -/
def recordAt? (p : Site) : Option Record := w.recordOf? (w.contextAt ctx p) p.here

/-- Siblings walked one after the other report their sites, if each of
them does. -/
theorem flatMap_siblings (above : List Step) (elders ts : List SyntaxTree)
    (h : ∀ t ∈ ts, ∀ elders,
      w.records t ((w.within ctx above).afterAll w.infer elders) =
        (t.sitesFrom above elders).filterMap (w.recordAt? ctx)) :
    (w.siblings ts ((w.within ctx above).afterAll w.infer elders)).flatMap
        (fun x => w.records x.1 x.2) =
      (SyntaxTree.sitesAmong above elders ts).filterMap (w.recordAt? ctx) := by
  induction ts generalizing elders with
  | nil => simp [siblings]
  | cons t ts ih =>
    have hafter : ((w.within ctx above).afterAll w.infer elders).after w.infer t =
        (w.within ctx above).afterAll w.infer (elders ++ [t]) := by
      simp [WalkContext.afterAll]
    have hrest := ih (elders ++ [t]) fun u hu => h u (by simp [hu])
    rw [SyntaxTree.sitesAmong_cons, List.filterMap_append, ← hrest, siblings]
    split
    · rw [List.flatMap_cons, hafter, h t (by simp)]
    · next hnode =>
      -- a name or a gap has no site, and the context is the same after it
      have hnode : t.isNode = false := by simpa using hnode
      rw [SyntaxTree.sitesFrom_of_not_isNode hnode, ← hafter, after_of_not_isNode hnode]
      rfl

/-- **The records of a tree are those of its sites**, wherever the tree
stands. The induction is on the tree; what is above it and before it is
any. -/
theorem records_eq_filterMap_sitesFrom (t : SyntaxTree) (above : List Step)
    (elders : List SyntaxTree) :
    w.records t ((w.within ctx above).afterAll w.infer elders) =
      (t.sitesFrom above elders).filterMap (w.recordAt? ctx) := by
  induction t using SyntaxTree.induction_children generalizing above elders with
  | absent => rw [records_of_not_isNode _ _ rfl, SyntaxTree.sitesFrom_of_not_isNode rfl]; rfl
  | name text => rw [records_of_not_isNode _ _ rfl, SyntaxTree.sitesFrom_of_not_isNode rfl]; rfl
  | node kind children span tag ih =>
    -- below the node, it is the innermost of what is above
    have hbelow := w.flatMap_siblings ctx (⟨kind, children, span, tag, elders⟩ :: above) []
      (kind.entered children) fun c hc elders =>
        ih c ((kind.entered_sublist children).subset hc) _ elders
    rw [SyntaxTree.sitesFrom_node, List.filterMap_cons, ← hbelow]
    refine (w.records_node _ ⟨kind, children, span, tag, elders⟩).trans ?_
    cases hrecord : w.recordOf? ((w.within ctx above).afterAll w.infer elders)
        ⟨kind, children, span, tag, elders⟩ with
    | none =>
      have hnone : w.recordAt? ctx ⟨⟨kind, children, span, tag, elders⟩, above⟩ = none := hrecord
      rw [hnone]
      rfl
    | some record =>
      have hsome : w.recordAt? ctx ⟨⟨kind, children, span, tag, elders⟩, above⟩ = some record :=
        hrecord
      rw [hsome]
      rfl

/-- **The records of a walk are those of the sites**, in pre-order. -/
theorem records_eq_filterMap_sites (t : SyntaxTree) :
    w.records t ctx = t.sites.filterMap (w.recordAt? ctx) :=
  w.records_eq_filterMap_sitesFrom ctx t [] []

/-- The definitions of a walk are those at the sites that open one. -/
theorem definitions_walk (t : SyntaxTree) :
    (w.walk t ctx).definitions =
      t.sites.filterMap fun p =>
        p.here.definitionKind?.map (w.definitionOf (w.contextAt ctx p) p.here) := by
  change (w.records t ctx).filterMap Record.definition? = _
  rw [records_eq_filterMap_sites, List.filterMap_filterMap]
  refine List.filterMap_congr fun p _ => ?_
  unfold recordAt? recordOf?
  cases p.here.definitionKind? with
  | some kind => rfl
  | none => cases p.here.mention? <;> rfl

/-- The relations of a walk are those at the sites that mention
something. -/
theorem relations_walk (t : SyntaxTree) :
    (w.walk t ctx).relations =
      t.sites.filterMap fun p =>
        p.here.mention?.map (w.relationOf (w.contextAt ctx p) p.here) := by
  change (w.records t ctx).filterMap Record.relation? = _
  rw [records_eq_filterMap_sites, List.filterMap_filterMap]
  refine List.filterMap_congr fun p _ => ?_
  unfold recordAt? recordOf?
  cases hkind : p.here.definitionKind? with
  | some kind =>
    have hdefinition : p.here.isDefinition := by simp [Step.isDefinition, hkind]
    rw [Step.mention?_of_isDefinition hdefinition]
    rfl
  | none => cases p.here.mention? <;> rfl

end Walker

/-! ## Which sites are reported -/

section Matching

variable {α β : Type} {q : α → Bool} {f : α → Option β} {xs : List α}

/-- What a list gives rise to, each beside what gave rise to it. -/
theorem zip_filter_filterMap (h : ∀ x, q x = (f x).isSome) :
    (xs.filter q).zip (xs.filterMap f) = xs.filterMap fun x => (f x).map fun y => (x, y) := by
  induction xs with
  | nil => rfl
  | cons x xs ih =>
    cases hf : f x with
    | none =>
      rw [List.filter_cons_of_neg (by simp [h, hf]), List.filterMap_cons_none hf,
        List.filterMap_cons_none (by simp [hf]), ih]
    | some y =>
      rw [List.filter_cons_of_pos (by simp [h, hf]), List.filterMap_cons_some hf,
        List.filterMap_cons_some (b := (x, y)) (by simp [hf]), List.zip_cons_cons, ih]

/-- What a list gives rise to, matched with what gave rise to it. -/
theorem mem_zip_filter_filterMap (h : ∀ x, q x = (f x).isSome) {x : α} {y : β} :
    (x, y) ∈ (xs.filter q).zip (xs.filterMap f) ↔ x ∈ xs ∧ f x = some y := by
  simp [zip_filter_filterMap h]

/-- One by one, in order, and with nothing left over on either side. -/
theorem forall₂_filter_filterMap {R : α → β → Prop} (h : ∀ x, q x = (f x).isSome)
    (hR : ∀ x ∈ xs, ∀ y, f x = some y → R x y) :
    List.Forall₂ R (xs.filter q) (xs.filterMap f) := by
  induction xs with
  | nil => exact .nil
  | cons x xs ih =>
    have hrest := ih fun y hy => hR y (List.mem_cons_of_mem x hy)
    cases hf : f x with
    | none =>
      rw [List.filter_cons_of_neg (by simp [h, hf]), List.filterMap_cons_none hf]
      exact hrest
    | some y =>
      rw [List.filter_cons_of_pos (by simp [h, hf]), List.filterMap_cons_some hf]
      exact .cons (hR x List.mem_cons_self y hf) hrest

end Matching

namespace Site

/-- The definition is one of the class or module at the site. -/
structure Opens (file : String) (p : Site) (d : Definition) : Prop where
  /-- It is a class or a module as the node is. -/
  kind : p.here.definitionKind? = some d.kind
  /-- It names the file of the walk. -/
  file : d.file = file
  /-- It starts where the node does. -/
  line : d.line = p.here.span.first
  /-- It covers the lines of the node. -/
  lines : d.lines = p.here.span.last - p.here.span.first + 1
  /-- These are one or more. -/
  lines_pos : 1 ≤ d.lines

/-- The relation is one of the mention at the site. -/
structure Mentions (file : String) (p : Site) (r : Relation) : Prop where
  /-- The node mentions something. -/
  mention : p.here.isMention
  /-- The relation names the file of the walk. -/
  file : r.file = file
  /-- It stands where the node starts. -/
  line : r.line = p.here.span.first

/-- The record is of what the site is. -/
def Reports (file : String) (p : Site) : Record → Prop
  | .definition d => p.Opens file d
  | .relation r => p.Mentions file r

end Site

namespace Walker

variable (w : Walker) (ctx : WalkContext)

theorem opens_definitionOf {p : Site} {kind : DefinitionKind}
    (h : p.here.definitionKind? = some kind) :
    p.Opens w.file (w.definitionOf ctx p.here kind) where
  kind := h
  file := rfl
  line := rfl
  lines := rfl
  lines_pos := by
    have := p.here.span.first_le_last
    simp only [definitionOf]
    omega

theorem mentions_relationOf {p : Site} {m : Mention} (h : p.here.mention? = some m) :
    p.Mentions w.file (w.relationOf ctx p.here m) where
  mention := by simp [Step.isMention, h]
  file := rfl
  line := rfl

/-- **A walk reports each site once**, in pre-order: the classes and
modules as definitions, the mentions as relations, and nothing else. Which
sites these are is decided by the tree alone, not by the context the walk
starts in nor by the inference. -/
theorem walk_reports_sites (t : SyntaxTree) :
    t.sites.Nodup ∧
      List.Forall₂ (Site.Opens w.file) (t.sites.filter (·.here.isDefinition))
        (w.walk t ctx).definitions ∧
      List.Forall₂ (Site.Mentions w.file) (t.sites.filter (·.here.isMention))
        (w.walk t ctx).relations ∧
      List.Forall₂ (Site.Reports w.file)
        (t.sites.filter fun p => p.here.isDefinition || p.here.isMention) (w.records t ctx) := by
  refine ⟨t.nodup_sites, ?_, ?_, ?_⟩
  · rw [definitions_walk]
    refine forall₂_filter_filterMap (by simp [Step.isDefinition]) fun p _ d hd => ?_
    obtain ⟨kind, hkind, rfl⟩ := Option.map_eq_some_iff.1 hd
    exact w.opens_definitionOf _ hkind
  · rw [relations_walk]
    refine forall₂_filter_filterMap (by simp [Step.isMention]) fun p _ r hr => ?_
    obtain ⟨m, hm, rfl⟩ := Option.map_eq_some_iff.1 hr
    exact w.mentions_relationOf _ hm
  · rw [records_eq_filterMap_sites]
    refine forall₂_filter_filterMap ?_ fun p _ x hx => ?_
    · simp [recordAt?, recordOf?, Step.isDefinition, Step.isMention]
    · rcases Option.or_eq_some_iff.1 hx with hx | ⟨-, hx⟩
      · obtain ⟨kind, hkind, rfl⟩ := Option.map_eq_some_iff.1 hx
        exact w.opens_definitionOf _ hkind
      · obtain ⟨m, hm, rfl⟩ := Option.map_eq_some_iff.1 hx
        exact w.mentions_relationOf _ hm

end Walker

end ConstGraph
