import ConstGraph.Proofs.DefinedCycles
import ConstGraph.Proofs.LocalTypes

/-!
# Where an inferred type comes from

A walk knows the type of a local only from an assignment `x = P.new(…)` it
has passed, and it has been inside that assignment before it goes on. So the
constant `P` there has been reported already, as the receiver of `new`, and
what is reported of the local later repeats its path. Between the two no
class, module or method is entered, so they have one caller and resolve
alike (`inferred_type_has_origin`).
-/

namespace ConstGraph

/-! ## The order of sites -/

namespace SyntaxTree

variable {above : List Step} {elders : List SyntaxTree} {t : SyntaxTree} {p q : Site}

/-- The sites of a sibling come before those of a later one. -/
theorem pair_sublist_sitesAmong {es es' back : List SyntaxTree} {u c : SyntaxTree}
    (hq : q ∈ u.sitesFrom above es) (hp : p ∈ c.sitesFrom above (es ++ u :: es')) :
    [q, p].Sublist (sitesAmong above [] ((es ++ u :: es') ++ c :: back)) := by
  have hfirst : q ∈ sitesAmong above [] (es ++ u :: es') :=
    mem_sitesAmong.2 ⟨es, u, es', rfl, hq⟩
  have hsecond : p ∈ sitesAmong above ([] ++ (es ++ u :: es')) (c :: back) :=
    mem_sitesAmong.2 ⟨[], c, back, rfl, by simpa using hp⟩
  rw [sitesAmong_append]
  exact (List.singleton_sublist.2 hfirst).append (List.singleton_sublist.2 hsecond)

/-- **A site below an elder comes first**: where the way down to a site goes
through a step of the tree, what stands before that step is listed before
the site. -/
theorem pair_sublist_sitesFrom {way rest : List Step} {s : Step} {es es' : List SyntaxTree}
    {u : SyntaxTree} (hp : p ∈ t.sitesFrom above elders)
    (hway : p.here :: p.above = way ++ s :: rest) (hinside : above.length < rest.length)
    (helders : s.elders = es ++ u :: es') (hq : q ∈ u.sitesFrom rest es) :
    [q, p].Sublist (t.sitesFrom above elders) := by
  induction t using induction_children generalizing above elders with
  | absent => simp at hp
  | name text => simp at hp
  | node kind children span tag ih =>
    obtain rfl | ⟨front, c, back, hentered, hp⟩ := mem_sitesFrom_node.1 hp
    · have hlength := congrArg List.length hway
      simp at hlength
      omega
    · rw [sitesFrom_node, hentered]
      refine List.Sublist.cons _ ?_
      rcases Nat.lt_or_ge (above.length + 1) rest.length with hdeeper | hhere
      · -- the step lies below the child
        have hmem : c ∈ children := (kind.entered_sublist children).subset (by simp [hentered])
        have hpair := ih c hmem hp (by simpa using hdeeper)
        rw [sitesAmong_append, sitesAmong_cons]
        exact (hpair.trans (List.sublist_append_left _ _)).trans (List.sublist_append_right _ _)
      · -- the step is the child itself, so its elders are the first children
        obtain ⟨way', s', hway', hs'⟩ := exists_way hp
        have hsplit := hway.symm.trans hway'
        obtain ⟨rfl, rfl⟩ := List.cons.inj (List.append_inj' hsplit (by simp; omega)).2
        obtain rfl : front = es ++ u :: es' := hs'.symm.trans helders
        exact pair_sublist_sitesAmong hq hp

end SyntaxTree

/-- What has been passed on the way down stands before a step, and no class,
module or method has been entered from there on. -/
theorem exists_of_mem_passedWithin {above : List Step} {u : SyntaxTree}
    (h : u ∈ passedWithin above) :
    ∃ way s rest, above = way ++ s :: rest ∧ u ∈ s.elders ∧
      ∀ s' ∈ way ++ [s], s'.hidesLocals = false := by
  induction above with
  | nil => cases h
  | cons s above ih =>
    rw [passedWithin] at h
    split at h
    · cases h
    · next hs =>
      have hs : s.hidesLocals = false := by simpa using hs
      rcases List.mem_append.1 h with h | h
      · obtain ⟨way, s', rest, rfl, hu, hway⟩ := ih h
        exact ⟨s :: way, s', rest, rfl, hu, List.forall_mem_cons.2 ⟨hs, hway⟩⟩
      · exact ⟨[], s, above, rfl, h, by simpa using hs⟩

/-- **What has been passed on the way to a site** stands before a step on
it, and no class, module or method has been entered since. -/
theorem Site.exists_of_mem_past {p : Site} {u : SyntaxTree} (h : u ∈ p.past) :
    ∃ way s rest, p.here :: p.above = way ++ s :: rest ∧ u ∈ s.elders ∧
      ∃ between, p.above = between ++ rest ∧ ∀ s' ∈ between, s'.hidesLocals = false := by
  rcases List.mem_append.1 h with h | h
  · obtain ⟨way, s, rest, habove, hu, hbetween⟩ := exists_of_mem_passedWithin h
    exact ⟨p.here :: way, s, rest, by simp [habove], hu, way ++ [s], by simp [habove], hbetween⟩
  · exact ⟨[], p.here, p.above, rfl, h, [], rfl, by simp⟩

/-! ## The assignment -/

/-- What is known in the end was known before or has been learnt from one
of the trees passed. -/
theorem exists_of_foldl_retype {x : String} {ts : List SyntaxTree} {type : InferredType}
    {known : Option InferredType} (h : ts.foldl (SyntaxTree.retype x) known = some type) :
    known = some type ∨
      ∃ u ∈ ts, WalkContext.assigned? u = some x ∧ Inference.constructor u {} = some type := by
  induction ts generalizing known with
  | nil => exact Or.inl h
  | cons t ts ih =>
    rcases ih h with hfirst | ⟨u, hu, hlearnt⟩
    · rw [SyntaxTree.retype] at hfirst
      split at hfirst
      · next hassigned => exact Or.inr ⟨t, List.mem_cons_self, hassigned, hfirst⟩
      · exact Or.inl hfirst
    · exact Or.inr ⟨u, List.mem_cons_of_mem t hu, hlearnt⟩

namespace Site

/-- The site is the constant `P` of an assignment `x = P.new(…)`. -/
def Constructs (q : Site) (x : String) : Prop :=
  q.here.kind = .constant ∧
    ∃ call assign rest operands more, q.above = call :: assign :: rest ∧
      call.kind = .call ∧ call.children = q.here.tree :: .name "new" :: operands ∧
      assign.kind = .localAssign ∧ assign.children = .name x :: call.tree :: more

end Site

/-- **A type is learnt from a constant that is a site**, two steps below the
assignment. -/
theorem exists_site_of_constructor {u : SyntaxTree} {x : String} {type : InferredType}
    (hassigned : WalkContext.assigned? u = some x)
    (htype : Inference.constructor u {} = some type) (rest : List Step) (es : List SyntaxTree) :
    ∃ q ∈ u.sitesFrom rest es, q.Constructs x ∧ type.path = q.here.tree.constPath [] ∧
      ∃ between, q.above = between ++ rest ∧ ∀ s ∈ between, s.hidesLocals = false := by
  obtain ⟨path, hpath, rfl⟩ := Option.map_eq_some_iff.1 htype
  have hconstructed := (Option.filter_eq_some_iff.1 hpath).1
  unfold Inference.constructorPath? at hconstructed
  split at hconstructed
  · next y receiver operands span' tag' more span tag =>
    split at hconstructed
    · next hkind =>
      obtain rfl := Option.some.inj hconstructed
      cases y with
      | name y =>
        obtain rfl : y = x := Option.some.inj hassigned
        cases receiver with
        | node kind names span'' tag'' =>
          obtain rfl : kind = .constant := Option.some.inj hkind
          let assign : Step := ⟨.localAssign, .name y :: .node .call
            (.node .constant names span'' tag'' :: .name "new" :: operands) span' tag' :: more,
            span, tag, es⟩
          let call : Step := ⟨.call, .node .constant names span'' tag'' :: .name "new" :: operands,
            span', tag', [.name y]⟩
          let constant : Step := ⟨.constant, names, span'', tag'', []⟩
          refine ⟨⟨constant, call :: assign :: rest⟩, ?_, ?_, rfl, [call, assign], rfl, ?_⟩
          · refine SyntaxTree.mem_sitesFrom_node.2 (Or.inr ⟨[.name y], call.tree, more, rfl, ?_⟩)
            refine SyntaxTree.mem_sitesFrom_node.2 (Or.inr ⟨[], constant.tree, _, rfl, ?_⟩)
            exact SyntaxTree.mem_sitesFrom_node.2 (Or.inl rfl)
          · exact ⟨rfl, call, assign, rest, operands, more, rfl, rfl, rfl, rfl, rfl⟩
          · simp [call, assign, Step.hidesLocals]
        | _ => cases hkind
      | _ => cases hassigned
    · cases hconstructed
  · cases hconstructed

/-! ## The two relations -/

/-- In a list without repetition, what comes before an item stands in front
of it. -/
theorem mem_front_of_pair_sublist {α : Type} {front back : List α} {a b : α}
    (hnodup : (front ++ b :: back).Nodup)
    (h : [a, b].Sublist (front ++ b :: back)) : a ∈ front := by
  obtain ⟨xs, ys, hab, hxs, hys⟩ := List.sublist_append_iff.1 h
  cases xs with
  | cons x xs =>
    obtain ⟨rfl, -⟩ := List.cons.inj hab
    exact hxs.subset List.mem_cons_self
  | nil =>
    -- then `b` would come up again after itself
    obtain rfl : [a, b] = ys := hab
    have hback : b ∈ back := by
      rcases List.sublist_cons_iff.1 hys with hys | ⟨zs, hzs, hys⟩
      · exact hys.subset (by simp)
      · obtain ⟨-, rfl⟩ := List.cons.inj hzs
        exact hys.subset List.mem_cons_self
    have hnot := (List.nodup_cons.1 (List.nodup_append.1 hnodup).2.1).1
    exact absurd hback hnot

/-- What a relation names depends on its path and its caller only. -/
theorem Relation.resolve_congr {r r' : Relation} (hpath : r.path = r'.path)
    (hcaller : r.caller = r'.caller) (store : DefinitionStore) :
    r.resolve store = r'.resolve store := by
  have habsolute : r.isAbsolute = r'.isAbsolute := by
    rw [isAbsolute, isAbsolute, hpath, hcaller]
  have hcandidates : r.candidates = r'.candidates := by
    rw [candidates, candidates, habsolute, hpath, hcaller]
  have hglobal : r.globalPath = r'.globalPath := by
    rw [globalPath, globalPath, habsolute, hpath]
  rw [resolve, resolve, hcandidates, hglobal]

/-- A call on a local that does not show an unknown type shows the one that
the local has. -/
theorem Step.exists_type_of_mentioned {s : Step} {ctx : WalkContext} {receiver : Option String}
    {callee : String} (h : s.mentioned ctx (.onLocal receiver callee) ≠ ["Untyped"]) :
    ∃ x type, receiver = some x ∧ ctx.types.get? x = some type ∧
      s.mentioned ctx (.onLocal receiver callee) = type.path := by
  cases receiver with
  | none => exact absurd rfl h
  | some x =>
    change (ctx.types.lookup x).path ≠ _ at h
    cases htype : ctx.types.get? x with
    | none =>
      rw [TypeScope.lookup, htype] at h
      exact absurd rfl h
    | some type =>
      refine ⟨x, type, rfl, htype, ?_⟩
      change (ctx.types.lookup x).path = _
      rw [TypeScope.lookup, htype]
      rfl

namespace Walker

variable {w : Walker} {ctx : WalkContext} {t : SyntaxTree}

/-- Inside nodes that keep the locals, the path is that around them. -/
theorem within_path_append {between : List Step} (h : ∀ s ∈ between, s.hidesLocals = false)
    (rest : List Step) : (w.within ctx (between ++ rest)).path = (w.within ctx rest).path := by
  induction between with
  | nil => rfl
  | cons s between ih =>
    obtain ⟨hs, hbetween⟩ := List.forall_mem_cons.1 h
    have hdefinition : s.isDefinition = false := by
      obtain ⟨kind, children, span, tag, elders⟩ := s
      cases kind with
      | moduleDef => cases hs
      | classDef => cases hs
      | _ => rfl
    rw [List.cons_append, within_cons]
    change (if s.isDefinition then _ else _) = _
    rw [hdefinition, contextAt_path]
    exact ih hbetween

/-- The constant of an assignment is reported as the receiver of `new`. -/
theorem contextAt_callee_of_constructs {q : Site} {x : String} (h : q.Constructs x) :
    (w.contextAt ctx q).callee = "new" := by
  obtain ⟨hconstant, call, assign, rest, operands, more, habove, hcall, hchildren, -⟩ := h
  have hnamed : call.call? = some (q.here.tree, "new") := by
    simp [Step.call?, hcall, hchildren]
  have hmarker : call.marker? = none := by
    rw [Step.marker?, hnamed]
    rfl
  have hoperand : call.operandOf? = some "new" := by
    simp [Step.operandOf?, hcall, hmarker, hnamed]
  rw [contextAt_callee, within_callee, habove, List.findSome?_cons, hoperand]
  rfl

theorem mention?_of_constructs {q : Site} {x : String} (h : q.Constructs x) :
    q.here.mention? = some .constant := by
  rw [Step.mention?, h.1]

variable (w ctx t)

/-- Every relation stands beside the mention it was found at. -/
theorem relationsAt_eq_filterMap :
    w.relationsAt ctx t = t.sites.filterMap fun p =>
      (p.here.mention?.map (w.relationOf (w.contextAt ctx p) p.here)).map fun r => (p, r) := by
  rw [relationsAt, relations_walk, zip_filter_filterMap (by simp [Step.isMention])]

/-- The relations of a walk come in the order of their mentions. -/
theorem map_snd_relationsAt :
    (w.relationsAt ctx t).map Prod.snd = (w.walk t ctx).relations := by
  rw [relationsAt_eq_filterMap, relations_walk, List.map_filterMap]
  exact List.filterMap_congr fun p _ => by simp [Function.comp_def]

theorem nodup_relationsAt : (w.relationsAt ctx t).Nodup := by
  rw [relationsAt_eq_filterMap]
  refine t.nodup_sites.filterMap fun p q x hp hq => ?_
  obtain ⟨r, -, rfl⟩ := Option.map_eq_some_iff.1 hp
  obtain ⟨r', -, hx⟩ := Option.map_eq_some_iff.1 hq
  exact (congrArg Prod.fst hx).symm

variable {w ctx t}

/-- Of two sites in order the relations are in order. -/
theorem pair_sublist_relationsAt {p q : Site} {m m' : Mention} (h : [q, p].Sublist t.sites)
    (hq : q.here.mention? = some m') (hp : p.here.mention? = some m) :
    [(q, w.relationOf (w.contextAt ctx q) q.here m'),
      (p, w.relationOf (w.contextAt ctx p) p.here m)].Sublist (w.relationsAt ctx t) := by
  rw [relationsAt_eq_filterMap]
  have hpair := h.filterMap fun p =>
    (p.here.mention?.map (w.relationOf (w.contextAt ctx p) p.here)).map fun r => (p, r)
  simpa [hq, hp] using hpair

/-- **A known type has been learnt from a site listed before.** -/
theorem exists_constructs {p : Site} {x : String} {type : InferredType}
    (hinfer : w.infer = .constructor) (hctx : ctx.types = .empty) (hp : p ∈ t.sites)
    (htype : (w.contextAt ctx p).types.get? x = some type) :
    ∃ q, [q, p].Sublist t.sites ∧ q.Constructs x ∧ type.path = q.here.tree.constPath [] ∧
      (w.contextAt ctx q).path = (w.contextAt ctx p).path := by
  rw [get?_contextAt hinfer hctx] at htype
  obtain ⟨u, hu, hassigned, hlearnt⟩ := (exists_of_foldl_retype htype).resolve_left nofun
  obtain ⟨way, s, rest, hway, hs, between, habove, hbetween⟩ := Site.exists_of_mem_past hu
  obtain ⟨es, es', helders⟩ := List.append_of_mem hs
  obtain ⟨q, hq, hconstructs, hpath, between', habove', hbetween'⟩ :=
    exists_site_of_constructor hassigned hlearnt rest es
  refine ⟨q, ?_, hconstructs, hpath, ?_⟩
  · refine SyntaxTree.pair_sublist_sitesFrom hp hway ?_ helders hq
    -- the whole tree has no elders, so the step is not the whole tree
    refine List.length_pos_of_ne_nil fun hrest => ?_
    subst hrest
    obtain ⟨way', s', hway', hs'⟩ := SyntaxTree.exists_way hp
    obtain ⟨rfl, -⟩ := List.cons.inj (List.append_inj' (hway.symm.trans hway') rfl).2
    simp [hs'] at hs
  · rw [contextAt_path, contextAt_path, habove, habove', within_path_append hbetween,
      within_path_append hbetween']

/-- **Every inferred type has a recorded origin.** Where a walk with
constructor inference reports a call on a local with a path that is not that
of an unknown type, it has reported that path before: at the constant of an
assignment `x = P.new(…)` to the same local, as the receiver of `new`, with
the same caller and file. So the two resolve to the same path in every
store. -/
theorem inferred_type_has_origin (hinfer : w.infer = .constructor) (hctx : ctx.types = .empty)
    {front back : List (Site × Relation)} {p : Site} {r : Relation}
    (hat : w.relationsAt ctx t = front ++ (p, r) :: back) {receiver : Option String}
    {callee : String} (hcall : p.here.mention? = some (.onLocal receiver callee))
    (hknown : r.path ≠ ["Untyped"]) :
    (w.walk t ctx).relations = front.map Prod.snd ++ r :: back.map Prod.snd ∧
      ∃ x q origin, receiver = some x ∧ (q, origin) ∈ front ∧ q.Constructs x ∧
        origin.callee = "new" ∧ origin.path = r.path ∧ origin.caller = r.caller ∧
        origin.file = r.file ∧ ∀ store, origin.resolve store = r.resolve store := by
  refine ⟨by rw [← map_snd_relationsAt, hat, List.map_append, List.map_cons], ?_⟩
  obtain ⟨hp, m, hm, rfl⟩ := mem_relationsAt.1 (hat ▸ List.mem_append_right front List.mem_cons_self)
  obtain rfl : m = .onLocal receiver callee := Option.some.inj (hm.symm.trans hcall)
  have hshown : p.here.mentioned (w.contextAt ctx p) (.onLocal receiver callee) ≠ ["Untyped"] :=
    hknown
  obtain ⟨x, type, rfl, htype, htypePath⟩ := Step.exists_type_of_mentioned hshown
  -- the type was learnt at a site that comes first, so its relation comes first too
  obtain ⟨q, hpair, hconstructs, hpath, hcaller⟩ := exists_constructs hinfer hctx hp htype
  have hmention := mention?_of_constructs hconstructs
  have hfront := mem_front_of_pair_sublist (hat ▸ w.nodup_relationsAt ctx t)
    (hat ▸ pair_sublist_relationsAt hpair hmention hm)
  have hsame : (w.relationOf (w.contextAt ctx q) q.here .constant).path = type.path := hpath.symm
  refine ⟨x, q, _, rfl, hfront, hconstructs, ?_, ?_, hcaller, rfl, ?_⟩
  · exact contextAt_callee_of_constructs hconstructs
  · exact hsame.trans htypePath.symm
  · exact Relation.resolve_congr (hsame.trans htypePath.symm) hcaller

open DependencyGraph (linesFrom) in
/-- `x = ::P.new` in a module `A`, with `x.go` inside a block after it. -/
def createsAndCalls : SyntaxTree :=
  .node .moduleDef
    [.node .constant [.absent, .name "A"] (linesFrom 1 0) "",
      .node .localAssign
        [.name "x",
          .node .call
            [.node .constant [.node .root [] (linesFrom 2 0) "", .name "P"] (linesFrom 2 0) "",
              .name "new"] (linesFrom 2 0) ""] (linesFrom 2 0) "",
      .node .other
        [.node .call [.node .localRead [.name "x"] (linesFrom 3 0) "", .name "go"] (linesFrom 3 0) ""]
        (linesFrom 3 0) "block"]
    (linesFrom 1 3) ""

theorem relationsAt_createsAndCalls :
    ∃ p q back,
      (⟨"a.rb", .constructor⟩ : Walker).relationsAt {} createsAndCalls =
        [(q, ⟨["", "P"], ["A"], "", "new", "a.rb", 2⟩)] ++
          (p, ⟨["", "P"], ["A"], "", "go", "a.rb", 3⟩) :: back ∧
        p.here.mention? = some (.onLocal (some "x") "go") := by
  rw [relationsAt_eq_filterMap]
  simp only [createsAndCalls, SyntaxTree.sites, SyntaxTree.sitesFrom_node, NodeKind.entered,
    SyntaxTree.sitesAmong_cons, SyntaxTree.sitesAmong_nil, SyntaxTree.sitesFrom_name, List.tail_cons,
    List.append_nil, List.nil_append, List.cons_append]
  exact ⟨_, _, [], rfl, rfl⟩

/-- The path of `x.go` is the rooted one of the constant, which is reported
before it. -/
theorem createsAndCalls_origin :
    ∃ front p r back,
      (⟨"a.rb", .constructor⟩ : Walker).relationsAt {} createsAndCalls = front ++ (p, r) :: back ∧
        p.here.mention? = some (.onLocal (some "x") "go") ∧ r.path = ["", "P"] ∧
        ∃ q origin, (q, origin) ∈ front ∧ q.Constructs "x" ∧ origin.callee = "new" ∧
          origin.path = ["", "P"] ∧ origin.caller = ["A"] := by
  obtain ⟨p, q, back, hat, hcall⟩ := relationsAt_createsAndCalls
  obtain ⟨-, x, q', origin, hx, hfront, hconstructs, hcallee, hpath, hcaller, -⟩ :=
    inferred_type_has_origin rfl rfl hat hcall (by decide)
  obtain rfl : "x" = x := Option.some.inj hx
  exact ⟨_, p, _, back, hat, hcall, rfl, q', origin, hfront, hconstructs, hcallee, hpath, hcaller⟩

end Walker

end ConstGraph
