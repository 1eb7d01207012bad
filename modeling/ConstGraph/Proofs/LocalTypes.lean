import ConstGraph.Proofs.ConstantsAndCalls
import ConstGraph.Proofs.InferenceRefines

/-!
# The types of locals by what has been passed

With constructor inference a walk learns the type of a local from an
assignment `x = P.new(…)` and forgets it at any other assignment to it. It
looks at the siblings it passes on its way and at nothing else, so the type
of a local at a place is decided by the last assignment to it among the
places that have been passed since the last class, module or method was
entered (`Outline.typeAt`). `report_callsOn` says that this is what a call
on the local reports.
-/

namespace ConstGraph

/-! ## The types of a walk -/

/-- What is known of a local after a tree has been passed. -/
def SyntaxTree.retype (x : String) (known : Option InferredType) (t : SyntaxTree) :
    Option InferredType :=
  if WalkContext.assigned? t = some x then Inference.constructor t {} else known

theorem SyntaxTree.retype_of_not_isNode {x : String} {t : SyntaxTree} (h : t.isNode = false)
    (known : Option InferredType) : t.retype x known = known := by
  cases t with
  | node kind children span tag => cases h
  | _ => rfl

theorem Inference.filter_constructor (t : SyntaxTree) (ctx : WalkContext) :
    (Inference.constructor t ctx).filter (·.known) = Inference.constructor t {} := by
  unfold Inference.constructor
  cases (Inference.constructorPath? t).filter (!·.isEmpty) <;> rfl

namespace Walker

variable {w : Walker} {ctx : WalkContext}

theorem get?_afterAll (hinfer : w.infer = .constructor) (ctx : WalkContext) (x : String)
    (ts : List SyntaxTree) :
    (ctx.afterAll w.infer ts).types.get? x =
      ts.foldl (SyntaxTree.retype x) (ctx.types.get? x) := by
  induction ts generalizing ctx with
  | nil => rfl
  | cons t ts ih =>
    refine (ih (ctx.after w.infer t)).trans ?_
    rw [List.foldl_cons, WalkContext.get?_after, hinfer, Inference.filter_constructor]
    rfl

theorem get?_within (hinfer : w.infer = .constructor) (hctx : ctx.types = .empty) (x : String)
    (above : List Step) :
    (w.within ctx above).types.get? x = (passedWithin above).foldl (SyntaxTree.retype x) none := by
  induction above with
  | nil =>
    change ctx.types.get? x = none
    rw [hctx]
    rfl
  | cons s above ih =>
    change (if s.hidesLocals then TypeScope.empty
      else ((w.within ctx above).afterAll w.infer s.elders).types).get? x = _
    rw [passedWithin]
    split
    · rfl
    · rw [get?_afterAll hinfer, ih, List.foldl_append]

/-- **The type of a local at a site is decided by what was passed.** -/
theorem get?_contextAt (hinfer : w.infer = .constructor) (hctx : ctx.types = .empty) (x : String)
    (p : Site) :
    (w.contextAt ctx p).types.get? x = p.past.foldl (SyntaxTree.retype x) none := by
  rw [contextAt, get?_afterAll hinfer, get?_within hinfer hctx, Site.past, List.foldl_append]

end Walker

theorem foldl_retype_filter (x : String) (ts : List SyntaxTree) (known : Option InferredType) :
    (ts.filter (·.isNode)).foldl (SyntaxTree.retype x) known =
      ts.foldl (SyntaxTree.retype x) known := by
  induction ts generalizing known with
  | nil => rfl
  | cons t ts ih =>
    cases ht : t.isNode with
    | true => rw [List.filter_cons_of_pos ht, List.foldl_cons, List.foldl_cons, ih]
    | false =>
      rw [List.filter_cons_of_neg (by simp [ht]), List.foldl_cons,
        SyntaxTree.retype_of_not_isNode ht, ih]

/-! ## The types of an outline -/

namespace Outline

/-- The local an outline assigns, if it is an assignment to one. -/
def assigned? : Outline → Option String
  | group (.node .localAssign _ _) (declare n :: _) => some n.text
  | _ => none

/-- The path of `P` in `P.new(…)`. -/
def created? : Outline → Option ConstPath
  | group (.node .call _ _) (receiver :: leaf (.name x) :: _) =>
    if x = "new" ∧ receiver.kind? = some .constant then receiver.spelled? else none
  | _ => none

/-- The path of `P` in an assignment `x = P.new(…)`. -/
def constructed? : Outline → Option ConstPath
  | group (.node .localAssign _ _) (_ :: _ :: value :: _) => value.created?
  | _ => none

/-- The local assigned at an address. -/
def assignedAt? (o : Outline) (a : Address) : Option String := (o.at? a).bind assigned?

/-- The path of `P` in an assignment `x = P.new(…)` at an address. -/
def constructedAt? (o : Outline) (a : Address) : Option ConstPath := (o.at? a).bind constructed?

/-- What is known of a local after a place has been passed. -/
def retype (o : Outline) (x : String) (known : Option ConstPath) (a : Address) :
    Option ConstPath :=
  if o.assignedAt? a = some x then o.constructedAt? a else known

/-- The type of a local at an address, by the places a walk has passed on
its way there. -/
def typeAt (o : Outline) (x : String) (here : Address) : Option ConstPath :=
  (o.seen false here).foldl (o.retype x) none

/-! ## What is built has the type of its outline -/

theorem proper_at {o part : Outline} {a : Address} (ho : o.Proper) (hat : o.at? a = some part) :
    part.Proper := by
  induction a generalizing o with
  | nil =>
    obtain rfl : o = part := by simpa [at?] using hat
    exact ho
  | cons i a ih =>
    obtain ⟨g, ps, inner, rfl, hi, hinner⟩ := exists_part hat
    cases ho with
    | group hps hfits => exact ih (hps inner (List.mem_of_getElem? hi)) hinner

theorem isSingle_of_isNode {o : Outline} (h : o.isNode) : o.isSingle := by
  cases o with
  | read n => rfl
  | group g ps =>
    cases g with
    | node kind tag n => rfl
    | _ => cases h
  | _ => cases h

section

variable {o : Outline} {locals : Address → String → Bool} {t : SyntaxTree}

theorem exists_spelled? (ho : o.Proper) (h : o.kind? = some .constant) :
    ∃ path, o.spelled? = some path := by
  cases ho with
  | @group g ps hps hfits =>
    cases g with
    | node kind tag n =>
      cases kind with
      | constant =>
        obtain ⟨qualifier, x, rfl, -⟩ := hfits
        exact ⟨_, rfl⟩
      | _ => cases h
    | _ => cases h
  | _ => cases h

/-- What a single outline is built into: a name or a gap, the tree of a read,
or a node with what its parts are built into. -/
theorem build_cases (hsingle : o.isSingle) (ho : o.Proper) (h : o.build locals = .ok [t]) :
    (t.isNode = false ∧ o.isNode = false) ∨
      (∃ n span, o = read n ∧ t = readAs (locals [] n.text) n span) ∨
      ∃ kind tag n ps us span, o = group (.node kind tag n) ps ∧
        (Grouping.node kind tag n).Fits ps ∧ (∀ part ∈ ps, part.Proper) ∧
        buildAll locals 0 ps = .ok us ∧ t = .node kind us span tag := by
  cases ho with
  | leaf ht =>
    cases h
    exact Or.inl ⟨ht, rfl⟩
  | read n =>
    obtain ⟨span, -, htree⟩ := build_read h
    cases htree
    exact Or.inr (Or.inl ⟨n, span, rfl, rfl⟩)
  | declare n => cases h
  | tooDeep => cases h
  | @group g ps hps hfits =>
    cases g with
    | node kind tag n =>
      obtain ⟨us, hus, hgather⟩ := build_group h
      obtain ⟨span, -, htree⟩ := gather_node hgather
      cases htree
      exact Or.inr (Or.inr ⟨kind, tag, n, ps, us, span, rfl, hfits, hps, hus, rfl⟩)
    | _ => cases hsingle

/-- What is no node is neither a constant nor a call nor an assignment. -/
theorem of_not_isNode (h : o.isNode = false) :
    o.kind? = none ∧ o.created? = none ∧ o.assigned? = none ∧ o.constructed? = none := by
  cases o with
  | group g ps =>
    cases g with
    | node kind tag n => cases h
    | _ => exact ⟨rfl, rfl, rfl, rfl⟩
  | _ => exact ⟨rfl, rfl, rfl, rfl⟩

/-- A constant is built of a constant only. -/
theorem kind?_eq_constant (hsingle : o.isSingle) (ho : o.Proper) (h : o.build locals = .ok [t]) :
    t.kind? = some .constant ↔ o.kind? = some .constant := by
  rcases build_cases hsingle ho h with ⟨ht, hnode⟩ | ⟨n, span, rfl, rfl⟩ |
      ⟨kind, tag, n, ps, us, span, rfl, -, -, -, rfl⟩
  · rw [(of_not_isNode hnode).1]
    cases t with
    | node kind children span tag => cases ht
    | _ => simp [SyntaxTree.kind?]
  · cases locals [] n.text <;> simp [readAs, SyntaxTree.kind?, kind?]
  · rfl

theorem constructorPath?_call (x receiver : SyntaxTree) (callee : String)
    (args : List SyntaxTree) (span span' : LineSpan) (tag tag' : String) :
    Inference.constructorPath? (.node .localAssign
        [x, .node .call (receiver :: .name callee :: args) span' tag'] span tag) =
      if callee = "new" ∧ receiver.kind? = some .constant then some (receiver.constPath [])
      else none := by
  by_cases hcallee : callee = "new"
  · subst hcallee
    simp [Inference.constructorPath?]
  · rw [if_neg fun h => hcallee h.1]
    unfold Inference.constructorPath?
    split
    · next heq =>
      simp only [SyntaxTree.node.injEq, List.cons.injEq, SyntaxTree.name.injEq] at heq
      exact absurd heq.2.1.2.1.2.1.2.1 hcallee
    · rfl

/-- **The value of an assignment says what its outline says it creates.** -/
theorem constructorPath?_of_build {value : Outline} (hsingle : value.isSingle)
    (ho : value.Proper) (h : value.build locals = .ok [t]) (x : SyntaxTree) (span : LineSpan)
    (tag : String) :
    Inference.constructorPath? (.node .localAssign [x, t] span tag) = value.created? := by
  rcases build_cases hsingle ho h with ⟨ht, hnode⟩ | ⟨n, span', rfl, rfl⟩ |
      ⟨kind, tag', n, ps, us, span', rfl, hfits, hps, hus, rfl⟩
  · rw [(of_not_isNode hnode).2.1]
    cases t with
    | node kind children span tag => cases ht
    | _ => rfl
  · cases locals [] n.text with
    | true => rfl
    | false =>
      change Inference.constructorPath? (.node .localAssign
        [x, .node .call [.absent, .name n.text] span' ""] span tag) = none
      rw [constructorPath?_call]
      simp [SyntaxTree.kind?]
  · cases kind with
    | call =>
      obtain ⟨receiver, callee, args, rfl, hreceiver⟩ := hfits
      have hproper := hps receiver List.mem_cons_self
      obtain ⟨r, vs, hr, hvs, rfl⟩ := buildAll_cons_single hreceiver hus
      obtain ⟨c, ws, hc, -, rfl⟩ := buildAll_cons_single rfl hvs
      cases hc
      rw [constructorPath?_call, constPath_of_build hproper hreceiver hr]
      simp only [kind?_eq_constant hreceiver hproper hr]
      change _ =
        if callee = "new" ∧ receiver.kind? = some .constant then receiver.spelled? else none
      split
      · next hnew =>
        obtain ⟨path, hpath⟩ := exists_spelled? hproper hnew.2
        rw [hpath]
        rfl
      · rfl
    | _ => rfl

/-- **What is built assigns what its outline assigns.** -/
theorem retype_of_build (hsingle : o.isSingle) (ho : o.Proper) (h : o.build locals = .ok [t]) :
    WalkContext.assigned? t = o.assigned? ∧ Inference.constructorPath? t = o.constructed? := by
  rcases build_cases hsingle ho h with ⟨ht, hnode⟩ | ⟨n, span, rfl, rfl⟩ |
      ⟨kind, tag, n, ps, us, span, rfl, hfits, hps, hus, rfl⟩
  · obtain ⟨-, -, hassigned, hconstructed⟩ := of_not_isNode hnode
    rw [hassigned, hconstructed]
    cases t with
    | node kind children span tag => cases ht
    | _ => exact ⟨rfl, rfl⟩
  · cases locals [] n.text <;> exact ⟨rfl, rfl⟩
  · cases kind with
    | localAssign =>
      obtain ⟨left, value, rfl, hvalue⟩ := hfits
      obtain ⟨ts, vs, hts, hvs, rfl⟩ := buildAll_cons hus
      cases hts
      obtain ⟨x, ws, hx, hws, rfl⟩ := buildAll_cons_single rfl hvs
      cases hx
      obtain ⟨v, rest, hv, hrest, rfl⟩ := buildAll_cons_single hvalue hws
      cases hrest
      exact ⟨rfl, constructorPath?_of_build hvalue (hps value (by simp)) hv _ span tag⟩
    | _ => exact ⟨rfl, rfl⟩

theorem spelled?_ne_nil {path : ConstPath} (h : o.spelled? = some path) : path ≠ [] := by
  unfold spelled? at h
  split at h <;> cases h <;> simp

theorem constructed?_ne_nil {path : ConstPath} (h : o.constructed? = some path) : path ≠ [] := by
  unfold constructed? at h
  split at h
  · unfold created? at h
    split at h
    · split at h
      · exact spelled?_ne_nil h
      · cases h
    · cases h
  · cases h

/-- **Passing what is built changes what is known as passing its outline
does.** -/
theorem constructor_of_build (hsingle : o.isSingle) (ho : o.Proper)
    (h : o.build locals = .ok [t]) :
    Inference.constructor t {} = o.constructed?.map (⟨·, true⟩) := by
  rw [Inference.constructor, (retype_of_build hsingle ho h).2]
  cases hpath : o.constructed? with
  | none => rfl
  | some path => simp [constructed?_ne_nil hpath]

end

/-! ## The places that have been passed -/

section

variable {apart : Bool} {g : Grouping} {ps : List Outline} {i : Nat} {a : Address}

/-- A top of the first parts of a group is a place of one of them. -/
theorem exists_of_mem_before (h : a ∈ before apart g (ps.take i)) :
    ∃ j part b, a = j :: b ∧ j < i ∧ ps[j]? = some part ∧ b ∈ part.places g.takesApart := by
  have hmem := (topsAll_sublist g.takesApart 0 _).subset (List.mem_filter.1 h).1
  obtain ⟨j, b, -, rfl⟩ := exists_head_of_mem_placesAll hmem
  obtain ⟨k, part, rfl, hk, hb⟩ := mem_placesAll_cons.1 hmem
  rw [List.getElem?_take] at hk
  split at hk
  · next hlt => exact ⟨0 + k, part, b, rfl, by omega, by rwa [Nat.zero_add], hb⟩
  · cases hk

/-- What has been passed on the way to a part stands before it or in it. -/
theorem of_mem_seen_cons {here : Address} {inner : Outline} (hi : ps[i]? = some inner)
    (h : a ∈ (group g ps).seen apart (i :: here)) :
    (inner.hides g.takesApart here = false ∧ a ∈ before apart g (ps.take i)) ∨
      ∃ b ∈ inner.seen g.takesApart here, a = i :: b := by
  rw [seen_cons hi, List.mem_append] at h
  rcases h with h | h
  · cases hhides : inner.hides g.takesApart here with
    | true => simp [hhides] at h
    | false => exact Or.inl ⟨rfl, by simpa [hhides] using h⟩
  · obtain ⟨b, hb, rfl⟩ := List.mem_map.1 h
    exact Or.inr ⟨b, hb, rfl⟩

end

/-- What has been passed is a node. -/
theorem isNode_of_mem_seen {o part : Outline} {apart : Bool} {here a : Address}
    (h : a ∈ o.seen apart here) (hat : o.at? a = some part) : part.isNode := by
  induction here generalizing o apart a with
  | nil => cases h
  | cons i here ih =>
    cases o with
    | group g ps =>
      cases hi : ps[i]? with
      | none => simp [seen, hi] at h
      | some inner =>
        rcases of_mem_seen_cons hi h with ⟨-, hbefore⟩ | ⟨b, hb, rfl⟩
        · obtain ⟨j, o, b, rfl, -, hj, hb⟩ := exists_of_mem_before hbefore
          rw [at?_cons hj] at hat
          exact isNode_of_mem_places hb hat
        · rw [at?_cons hi] at hat
          exact ih hb hat
    | _ => cases h

/-- **What has been passed is listed in order.** -/
theorem pairwise_seen (o : Outline) (apart : Bool) (here : Address) :
    (o.seen apart here).Pairwise (· < ·) := by
  induction here generalizing o apart with
  | nil => exact .nil
  | cons i here ih =>
    cases o with
    | group g ps =>
      cases hi : ps[i]? with
      | none => simp [seen, hi]
      | some inner =>
        have hfront : (before apart g (ps.take i)).Pairwise (· < ·) :=
          ((pairwise_placesAll g.takesApart 0 _).sublist (topsAll_sublist _ _ _)).filter _
        rw [seen_cons hi, List.pairwise_append]
        refine ⟨?_, pairwise_map_cons (ih inner g.takesApart) i, fun a ha b hb => ?_⟩
        · split
          · exact .nil
          · exact hfront
        · obtain ⟨c, -, rfl⟩ := List.mem_map.1 hb
          have hbefore : a ∈ before apart g (ps.take i) := by
            split at ha
            · cases ha
            · exact ha
          obtain ⟨j, o, d, rfl, hlt, -⟩ := exists_of_mem_before hbefore
          exact List.cons_lt_cons_iff.2 (Or.inl hlt)
    | _ => exact .nil

/-! ## The type of a local at a place -/

/-- What the trees passed say of a local is what their outlines say. -/
theorem foldl_retype {o : Outline} (ho : o.Proper) {locals : Address → String → Bool}
    {here : Address} (x : String) {as : List Address} {ts : List SyntaxTree}
    (hseen : ∀ a ∈ as, a ∈ o.seen false here) (h : List.Forall₂ (o.BuildsAt locals) as ts)
    (known : Option ConstPath) :
    ts.foldl (SyntaxTree.retype x) (known.map (⟨·, true⟩)) =
      (as.foldl (o.retype x) known).map (⟨·, true⟩) := by
  induction h generalizing known with
  | nil => rfl
  | @cons a t as ts hat _ ih =>
    obtain ⟨part, hpart, hbuild⟩ := hat
    have hsingle := isSingle_of_isNode (isNode_of_mem_seen (hseen a List.mem_cons_self) hpart)
    have hproper := proper_at ho hpart
    have hstep : t.retype x (known.map (⟨·, true⟩)) = (o.retype x known a).map (⟨·, true⟩) := by
      rw [SyntaxTree.retype, retype, assignedAt?, constructedAt?, hpart,
        (retype_of_build hsingle hproper hbuild).1, constructor_of_build hsingle hproper hbuild]
      change (if part.assigned? = some x then _ else _) =
        Option.map _ (if part.assigned? = some x then _ else _)
      split <;> rfl
    rw [List.foldl_cons, List.foldl_cons, hstep]
    exact ih (fun a ha => hseen a (List.mem_cons_of_mem _ ha)) _

/-- At the address stands a call of a method on a local variable. -/
def CallsOn (o : Outline) (here : Address) (n : ConcreteNode) (x : String) : Prop :=
  ∃ depth v, o.at? here = some (send (within depth) n) ∧ n.child? "receiver" = some v ∧
    v.construct = .identifier ∧ v.text = x ∧ o.IsLocal (here ++ [0]) x

end Outline

namespace ConcreteNode

open Outline

variable {root n : ConcreteNode} {t : SyntaxTree} {w : Walker} {ctx : WalkContext}
  {here : Address} {x : String}

/-- The type of a local at a site is that at its place. -/
theorem get?_of_stands (hinfer : w.infer = .constructor) (hctx : ctx.types = .empty) {p : Site}
    (hp : root.outline.Stands root.locals false [] here p) (x : String) :
    (w.contextAt ctx p).types.get? x = (root.outline.typeAt x here).map (⟨·, true⟩) := by
  obtain ⟨rest, hpast, hseen⟩ := hp.past
  have hrest : p.past = rest := by
    rw [hpast]
    cases root.outline.hides false here <;> rfl
  rw [Walker.get?_contextAt hinfer hctx, hrest, ← foldl_retype_filter]
  exact foldl_retype (proper_within Conversion.nestingLimit root).1 x (fun a ha => ha) hseen none

/-- A call on a local becomes a call on a local read. -/
theorem mention?_of_callsOn (hcall : root.outline.CallsOn here n x) {s : Step} {part : Outline}
    (hat : root.outline.at? here = some part)
    (hbuild : part.build (fun b => root.locals (here ++ b)) = .ok [s.tree]) :
    s.mention? = if n.callee = "" then none else some (.onLocal (some x) n.callee) := by
  obtain ⟨depth, v, hsend, hv, hid, rfl, hlocal⟩ := hcall
  obtain rfl := Option.some.inj (hat.symm.trans hsend)
  obtain ⟨hkind, -, receiver, args, hreceiver, hchildren⟩ :=
    build_send (proper_within depth) hbuild
  rw [hv] at hreceiver
  change (within depth v).build _ = _ at hreceiver
  cases depth with
  | zero => cases hreceiver
  | succ depth =>
    have hread : within (depth + 1) v = read v := by
      simp [within, ofNode, hid]
    have hreadAt : root.outline.at? (here ++ [0]) = some (read v) := by
      refine (at?_concat hsend 0).trans ?_
      rw [hv, ← hread]
      rfl
    have hholds : root.locals (here ++ [0]) v.text = true := by
      rw [locals, holdsAt, List.contains_iff_mem, mem_namesAt hreadAt]
      exact Or.inr hlocal
    rw [hread] at hreceiver
    obtain ⟨span, -, htree⟩ := build_read hreceiver
    rw [hholds] at htree
    cases htree
    rw [Step.mention?, hkind]
    by_cases hcallee : n.callee = ""
    · rw [hcallee] at hchildren
      rw [if_pos hcallee, Step.call?, hkind, hchildren]
      rfl
    · rw [if_neg hcallee, Step.call?_eq_some hkind hchildren hcallee]
      rfl

/-- A call on a local is reported, if the method has a name and a walk comes
to it. -/
theorem exists_report_callsOn (h : root.toSyntax = .ok t) (hcall : root.outline.CallsOn here n x)
    (hcallee : n.callee ≠ "") (hout : root.outline.Outside here)
    (hwhole : ¬ root.outline.TakenApart here) :
    ∃ r, (here, r) ∈ root.outline.reports w ctx t := by
  obtain ⟨depth, v, hat, -⟩ := id hcall
  obtain ⟨p, -, hbuild, hreports⟩ := exists_site w ctx h hat rfl hout hwhole
  have hm := mention?_of_callsOn hcall hat hbuild
  rw [if_neg hcallee] at hm
  exact ⟨_, (hreports _).2 ⟨_, hm, rfl⟩⟩

/-- **A call on a local is reported on the type that the last assignment
passed gives it.** -/
theorem report_callsOn (h : root.toSyntax = .ok t) (hinfer : w.infer = .constructor)
    (hctx : ctx.types = .empty) (hcall : root.outline.CallsOn here n x) {r : Relation}
    (hr : (here, r) ∈ root.outline.reports w ctx t) :
    r.callee = n.callee ∧ r.path = (root.outline.typeAt x here).getD ["Untyped"] := by
  obtain ⟨depth, v, hat, -⟩ := id hcall
  obtain ⟨p, m, hp, hbuild, hm, rfl⟩ := exists_of_mem_reports h hr hat
  rw [mention?_of_callsOn hcall hat hbuild] at hm
  split at hm
  · cases hm
  · cases hm
    refine ⟨rfl, ?_⟩
    change ((w.contextAt ctx p).types.lookup x).path = _
    rw [TypeScope.lookup, get?_of_stands hinfer hctx hp]
    cases root.outline.typeAt x here <;> rfl

end ConcreteNode

end ConstGraph
