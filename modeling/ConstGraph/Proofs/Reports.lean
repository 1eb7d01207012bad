import ConstGraph.Analysis
import ConstGraph.Proofs.Places

/-!
# What is reported where

A walk of the syntax tree of a program reports relations; here each of them
is given the place of the outline it comes from (`Outline.reports`). Nothing
is lost on the way, and no place is reported twice
(`map_snd_reports`, `nodup_reports`), so "the relation of this call" and
"no relation of this constant" are questions about places.

Which places a walk comes to is said by the groups around them: it does not
go into constants and names of definitions (`Outside`), and a node that is
taken apart is not a place itself (`TakenApart`). Everywhere else a node of
the outline is a node of the tree (`exists_site`).
-/

namespace ConstGraph

namespace Outline

/-! ## Ways down an outline -/

/-- A node comes of the outline. -/
def isNode : Outline → Bool
  | read _ => true
  | group g _ => g.isNode
  | _ => false

/-- The outline may become a node that mentions something. -/
def isMention : Outline → Bool
  | read _ | group (.node .constant ..) _ | group (.node .call ..) _ => true
  | _ => false

/-- A walk goes on all the way to the address: this is neither inside a
constant nor inside the name of a class or module. -/
def Outside (o : Outline) (a : Address) : Prop :=
  ∀ b i g ps, b ++ [i] <+: a → o.at? b = some (group g ps) → g.enters i

/-- What stands at the address is taken apart. -/
def TakenApart (o : Outline) (a : Address) : Prop :=
  ∃ b i ps, a = b ++ [i] ∧ o.at? b = some (group .splice ps)

theorem exists_part {o inner : Outline} {i : Nat} {a : Address} (h : o.at? (i :: a) = some inner) :
    ∃ g ps part, o = group g ps ∧ ps[i]? = some part ∧ part.at? a = some inner := by
  cases o with
  | group g ps =>
    cases hi : ps[i]? with
    | none => simp [at?, parts, hi] at h
    | some part =>
      rw [at?_cons hi] at h
      exact ⟨g, ps, part, rfl, hi, h⟩
  | _ => simp [at?, parts] at h

theorem at?_append (o : Outline) (a b : Address) : o.at? (a ++ b) = (o.at? a).bind (·.at? b) := by
  induction a generalizing o with
  | nil => rfl
  | cons i a ih =>
    rw [List.cons_append, at?, at?]
    cases o.parts[i]? with
    | none => rfl
    | some part => exact ih part

theorem at?_concat {o : Outline} {a : Address} {g : Grouping} {ps : List Outline}
    (h : o.at? a = some (group g ps)) (i : Nat) : o.at? (a ++ [i]) = ps[i]? := by
  rw [at?_append, h]
  change (group g ps).at? [i] = _
  cases hi : ps[i]? with
  | none => simp [at?, parts, hi]
  | some part => exact at?_cons hi []

section

variable {g : Grouping} {ps : List Outline} {i : Nat} {part : Outline} {a : Address}

theorem outside_nil (o : Outline) : o.Outside [] := by
  intro b i g ps hb
  simp at hb

theorem outside_cons (hi : ps[i]? = some part) :
    (group g ps).Outside (i :: a) ↔ g.enters i ∧ part.Outside a := by
  constructor
  · intro h
    refine ⟨h [] i g ps (by simp) rfl, fun b j g' qs hb hat => h (i :: b) j g' qs ?_ ?_⟩
    · exact List.cons_prefix_cons.2 ⟨rfl, hb⟩
    · rwa [at?_cons hi]
  · rintro ⟨henters, h⟩ b j g' qs hb hat
    cases b with
    | nil =>
      cases hat
      obtain ⟨rfl, -⟩ := List.cons_prefix_cons.1 hb
      exact henters
    | cons i' b =>
      obtain ⟨rfl, hrest⟩ := List.cons_prefix_cons.1 hb
      rw [at?_cons hi] at hat
      exact h b j g' qs hrest hat

theorem Outside.concat {o : Outline} (h : o.Outside a) (hat : o.at? a = some (group g ps))
    (henters : g.enters i) : o.Outside (a ++ [i]) := by
  intro b j g' qs hb hat'
  rcases List.prefix_concat_iff.1 hb with hb | hb
  · obtain ⟨rfl, hj⟩ := List.append_inj' hb rfl
    rw [hat] at hat'
    cases hat'
    cases hj
    exact henters
  · exact h b j g' qs hb hat'

theorem not_takenApart_concat {o : Outline} (hat : o.at? a = some (group g ps))
    (hg : g.takesApart = false) : ¬ o.TakenApart (a ++ [i]) := by
  rintro ⟨b, j, qs, hb, hat'⟩
  obtain ⟨rfl, -⟩ := List.append_inj' hb rfl
  rw [hat] at hat'
  cases hat'
  cases hg

/-! ## The order of places -/

theorem mem_placesAll_cons {apart : Bool} {k : Nat} {os : List Outline} :
    i :: a ∈ placesAll apart k os ↔
      ∃ j o, i = k + j ∧ os[j]? = some o ∧ a ∈ o.places apart := by
  induction os generalizing k with
  | nil => simp [placesAll]
  | cons o os ih =>
    rw [placesAll, List.mem_append, ih]
    constructor
    · rintro (h | ⟨j, o', rfl, hj, ha⟩)
      · obtain ⟨b, hb, heq⟩ := List.mem_map.1 h
        cases heq
        exact ⟨0, o, rfl, rfl, hb⟩
      · exact ⟨j + 1, o', by omega, hj, ha⟩
    · rintro ⟨j, o', rfl, hj, ha⟩
      cases j with
      | zero =>
        cases hj
        exact Or.inl (List.mem_map.2 ⟨a, ha, rfl⟩)
      | succ j => exact Or.inr ⟨j, o', by omega, hj, ha⟩

/-- A place below a group is one of some part the walk goes on to. -/
theorem mem_places_cons {apart : Bool} (hi : ps[i]? = some part) :
    i :: a ∈ (group g ps).places apart ↔ leadsOn apart g [i] ∧ a ∈ part.places g.takesApart := by
  have hleads : leadsOn apart g (i :: a) = leadsOn apart g [i] := rfl
  have hown : i :: a ∉ (if !apart && g.isNode then [[]] else [] : List Address) := by
    split <;> simp
  rw [places, List.mem_append, or_iff_right hown, List.mem_filter, hleads, mem_placesAll_cons,
    and_comm]
  simp [hi]

end

/-- **A node of the outline is a place**, unless it is taken apart or stands
where the walk does not go. -/
theorem mem_places {o part : Outline} {a : Address} {apart : Bool} (hat : o.at? a = some part)
    (hnode : part.isNode) (hout : o.Outside a) (hwhole : ¬ o.TakenApart a)
    (hapart : a = [] → apart = false) : a ∈ o.places apart := by
  induction a generalizing o apart with
  | nil =>
    obtain rfl : o = part := by simpa [at?] using hat
    obtain rfl := hapart rfl
    cases o with
    | read n => simp [places]
    | group g ps =>
      have hg : g.isNode := hnode
      simp [places, hg]
    | _ => cases hnode
  | cons i a ih =>
    obtain ⟨g, ps, inner, rfl, hi, hinner⟩ := exists_part hat
    obtain ⟨henters, hout⟩ := (outside_cons hi).1 hout
    refine (mem_places_cons hi).2 ⟨by simp [leadsOn, henters], ih hinner hout ?_ ?_⟩
    · rintro ⟨b, j, qs, rfl, hb⟩
      exact hwhole ⟨i :: b, j, qs, rfl, (at?_cons hi b).trans hb⟩
    · rintro rfl
      cases g with
      | splice => exact absurd ⟨[], i, ps, rfl, rfl⟩ hwhole
      | _ => rfl

/-- A place is where a node of the outline is. -/
theorem isNode_of_mem_places {o part : Outline} {a : Address} {apart : Bool}
    (h : a ∈ o.places apart) (hat : o.at? a = some part) : part.isNode := by
  induction a generalizing o apart with
  | nil =>
    obtain rfl : o = part := by simpa [at?] using hat
    cases o with
    | read n => rfl
    | group g ps =>
      have hbelow : [] ∉ (placesAll g.takesApart 0 ps).filter (leadsOn apart g) := by
        intro hmem
        obtain ⟨j, rest, -, hnil⟩ := exists_head_of_mem_placesAll (List.mem_filter.1 hmem).1
        cases hnil
      rw [places, List.mem_append, or_iff_left hbelow] at h
      cases hg : g.isNode with
      | true => exact hg
      | false => simp [hg] at h
    | _ => cases h
  | cons i a ih =>
    obtain ⟨g, ps, inner, rfl, hi, hinner⟩ := exists_part hat
    exact ih ((mem_places_cons hi).1 h).2 hinner

/-- What is taken apart is no place. -/
theorem not_takenApart_of_mem_places {o : Outline} {a : Address} {apart : Bool}
    (h : a ∈ o.places apart) : ¬ o.TakenApart a := by
  rintro ⟨b, i, ps, rfl, hat⟩
  induction b generalizing o apart with
  | nil =>
    obtain rfl : o = group .splice ps := by simpa [at?] using hat
    rw [places, List.mem_append, or_iff_right (by simp [Grouping.isNode]), List.mem_filter,
      List.nil_append, mem_placesAll_cons] at h
    obtain ⟨⟨j, part, -, -, hpart⟩, -⟩ := h
    -- the node of a part that is taken apart is not among its places
    cases part with
    | group g qs =>
      rw [places, List.mem_append, or_iff_right (by simp [Grouping.takesApart])] at hpart
      obtain ⟨k, rest, -, hnil⟩ := exists_head_of_mem_placesAll (List.mem_filter.1 hpart).1
      cases hnil
    | _ => simp [places, Grouping.takesApart] at hpart
  | cons j b ih =>
    obtain ⟨g, qs, part, rfl, hj, hpart⟩ := exists_part hat
    exact ih hpart ((mem_places_cons hj).1 h).2

mutual

/-- The tops are some of the places. -/
theorem tops_sublist (apart : Bool) (o : Outline) : (o.tops apart).Sublist (o.places apart) := by
  match o with
  | leaf t => exact .slnil
  | read n => exact .refl _
  | declare n => exact .slnil
  | tooDeep => exact .slnil
  | group g ps =>
    rw [tops, places]
    by_cases hnode : (!apart && g.isNode) = true
    · rw [if_pos hnode, if_pos hnode]
      exact List.sublist_append_left _ _
    · -- the group leaves its parts where it stands, and a walk goes on to all of them
      have hleads : ∀ a ∈ placesAll g.takesApart 0 ps, leadsOn apart g a := by
        intro a _
        cases g with
        | node kind tag n =>
          obtain rfl : apart = true := by simpa [Grouping.isNode] using hnode
          rfl
        | _ => simp [leadsOn, Grouping.enters]
      rw [if_neg hnode, if_neg hnode, List.nil_append, List.filter_eq_self.2 hleads]
      exact topsAll_sublist g.takesApart 0 ps

theorem topsAll_sublist (apart : Bool) (i : Nat) (os : List Outline) :
    (topsAll apart i os).Sublist (placesAll apart i os) := by
  match os with
  | [] => exact .slnil
  | o :: os =>
    rw [topsAll, placesAll]
    exact ((tops_sublist apart o).map _).append (topsAll_sublist apart (i + 1) os)

end

theorem pairwise_map_cons {as : List Address} (h : as.Pairwise (· < ·)) (i : Nat) :
    (as.map (i :: ·)).Pairwise (· < ·) := by
  rw [List.pairwise_map]
  exact h.imp fun hab => List.cons_lt_cons_iff.2 (Or.inr ⟨rfl, hab⟩)

mutual

/-- **Places come up in the order of their addresses.** -/
theorem pairwise_places (apart : Bool) (o : Outline) : (o.places apart).Pairwise (· < ·) := by
  match o with
  | leaf t => simp [places]
  | read n => cases apart <;> simp [places]
  | declare n => simp [places]
  | tooDeep => simp [places]
  | group g ps =>
    have hbelow := (pairwise_placesAll g.takesApart 0 ps).filter (leadsOn apart g)
    rw [places, List.pairwise_append]
    refine ⟨by split <;> simp, hbelow, fun a ha b hb => ?_⟩
    obtain ⟨j, rest, -, rfl⟩ := exists_head_of_mem_placesAll (List.mem_filter.1 hb).1
    obtain rfl : a = [] := by
      split at ha
      · exact List.mem_singleton.1 ha
      · cases ha
    exact List.nil_lt_cons j rest

theorem pairwise_placesAll (apart : Bool) (i : Nat) (os : List Outline) :
    (placesAll apart i os).Pairwise (· < ·) := by
  match os with
  | [] => simp [placesAll]
  | o :: os =>
    rw [placesAll, List.pairwise_append]
    refine ⟨pairwise_map_cons (pairwise_places apart o) i, pairwise_placesAll apart (i + 1) os, ?_⟩
    intro a ha b hb
    obtain ⟨c, -, rfl⟩ := List.mem_map.1 ha
    obtain ⟨j, rest, hj, rfl⟩ := exists_head_of_mem_placesAll hb
    exact List.cons_lt_cons_iff.2 (Or.inl (by omega))

end

/-- No place is listed twice. -/
theorem nodup_places (apart : Bool) (o : Outline) : (o.places apart).Nodup := by
  refine (pairwise_places apart o).imp ?_
  rintro a b hlt rfl
  exact List.lt_irrefl a hlt

/-! ## Reports -/

/-- The relations a walk of the outline's tree reports, each with the place
of the node it was found at. -/
def reports (o : Outline) (w : Walker) (ctx : WalkContext) (t : SyntaxTree) :
    List (Address × Relation) :=
  ((o.places false).zip t.sites).filterMap fun x =>
    x.2.here.mention?.map fun m => (x.1, w.relationOf (w.contextAt ctx x.2) x.2.here m)

/-- The node that comes of a group has the kind and the lines of the group,
and for children what comes of the parts. -/
theorem build_node {locals : Address → String → Bool} {kind : NodeKind} {tag : String}
    {n : ConcreteNode} {ps : List Outline} {s : Step}
    (h : (group (.node kind tag n) ps).build locals = .ok [s.tree]) :
    s.kind = kind ∧ n.lines = .ok s.span ∧ buildAll locals 0 ps = .ok s.children := by
  obtain ⟨us, hus, hgather⟩ := build_group h
  obtain ⟨span, hspan, htree⟩ := gather_node hgather
  cases htree
  exact ⟨rfl, hspan, hus⟩

/-- What is built of an outline is built of all its parts. -/
theorem exists_build_part {locals : Address → String → Bool} {ps : List Outline} {i k : Nat}
    {part : Outline} {us : List SyntaxTree} (h : buildAll locals k ps = .ok us)
    (hi : ps[i]? = some part) : ∃ ts, part.build (fun b => locals ((k + i) :: b)) = .ok ts := by
  induction ps generalizing i k us with
  | nil => simp at hi
  | cons o os ih =>
    obtain ⟨ts, vs, hts, hvs, rfl⟩ := buildAll_cons h
    cases i with
    | zero =>
      cases hi
      exact ⟨ts, hts⟩
    | succ i =>
      obtain ⟨us, hus⟩ := ih hvs hi
      exact ⟨us, by rwa [Nat.add_comm i, ← Nat.add_assoc]⟩

theorem exists_build_at {locals : Address → String → Bool} {o part : Outline} {a : Address}
    {ts : List SyntaxTree} (h : o.build locals = .ok ts) (hat : o.at? a = some part) :
    ∃ us, part.build (fun b => locals (a ++ b)) = .ok us := by
  induction a generalizing o locals ts with
  | nil =>
    obtain rfl : o = part := by simpa [at?] using hat
    exact ⟨ts, h⟩
  | cons i a ih =>
    obtain ⟨g, ps, inner, rfl, hi, hinner⟩ := exists_part hat
    obtain ⟨us, hus, -⟩ := build_group h
    obtain ⟨vs, hvs⟩ := exists_build_part hus hi
    rw [Nat.zero_add] at hvs
    exact ih hvs hinner

end Outline

namespace ConcreteNode

open Outline

variable {root : ConcreteNode} {t : SyntaxTree}

/-- The locals of a program by their places. -/
abbrev locals (root : ConcreteNode) : Address → String → Bool := root.outline.holdsAt []

/-- The conversion of a program builds its outline. -/
theorem build_outline (h : root.toSyntax = .ok t) : root.outline.build root.locals = .ok [t] := by
  have hempty : Holds .empty [] := by
    intro x
    simp [LocalScope.contains, LocalScope.empty]
  have helaborate : (root.outline.elaborate .empty).map Prod.fst = .ok [t] := by
    rw [ConcreteNode.toSyntax] at h
    rw [outline, elaborate_within, bind_apply]
    cases hconvert : Conversion.convert Conversion.nestingLimit root .empty with
    | error e => rw [hconvert] at h; cases h
    | ok r => rw [hconvert] at h; cases h; rfl
  rw [root.outline.elaborate_eq_build [] .empty hempty] at helaborate
  cases hbuild : root.outline.build (root.outline.holdsAt []) with
  | error e => rw [hbuild] at helaborate; cases helaborate
  | ok ts => rw [hbuild] at helaborate; exact helaborate

/-- In a program that is converted no node is nested too deeply. -/
theorem exists_build_within (h : root.toSyntax = .ok t) {a : Address} {depth : Nat}
    {n : ConcreteNode} (hat : root.outline.at? a = some (within depth n)) :
    ∃ d us, depth = d + 1 ∧ (within depth n).build (fun b => root.locals (a ++ b)) = .ok us := by
  obtain ⟨us, hus⟩ := exists_build_at (build_outline h) hat
  cases depth with
  | zero => cases hus
  | succ d => exact ⟨d, us, rfl, hus⟩

/-- **The places of a program are the sites of its tree.** -/
theorem stands_places (h : root.toSyntax = .ok t) :
    List.Forall₂ (root.outline.Stands root.locals false []) (root.outline.places false)
      t.sites := by
  have hmatch := placesMatch_of_proper (proper_within Conversion.nestingLimit root).1 root.locals
    false [t] [] [] nofun (build_outline h)
  rwa [laid, if_neg (by simp), SyntaxTree.sitesAmong_singleton] at hmatch

variable (w : Walker) (ctx : WalkContext)

theorem map_snd_reports (h : root.toSyntax = .ok t) :
    (root.outline.reports w ctx t).map Prod.snd = (w.walk t ctx).relations := by
  have hlength := (stands_places h).length_eq
  have hsites : ((root.outline.places false).zip t.sites).map Prod.snd = t.sites :=
    List.map_snd_zip (Nat.le_of_eq hlength.symm)
  rw [Walker.relations_walk, ← hsites, reports, List.map_filterMap, List.filterMap_map]
  refine List.filterMap_congr fun x _ => ?_
  simp [Function.comp_def]

theorem nodup_reports (h : root.toSyntax = .ok t) :
    ((root.outline.reports w ctx t).map Prod.fst).Nodup := by
  have hlength := (stands_places h).length_eq
  have hplaces : ((root.outline.places false).zip t.sites).Pairwise fun x y => x.1 ≠ y.1 := by
    refine List.pairwise_map.1 ?_
    rw [List.map_fst_zip (Nat.le_of_eq hlength)]
    exact nodup_places false root.outline
  rw [List.nodup_iff_pairwise_ne, List.pairwise_map]
  refine hplaces.filterMap _ fun x y hxy b hb c hc => ?_
  obtain ⟨m, -, rfl⟩ := Option.map_eq_some_iff.1 hb
  obtain ⟨m', -, rfl⟩ := Option.map_eq_some_iff.1 hc
  exact hxy

variable {w ctx}

/-- What is reported at a place is the mention at its site. -/
theorem mem_reports {a : Address} {r : Relation} :
    (a, r) ∈ root.outline.reports w ctx t ↔
      ∃ p m, (a, p) ∈ (root.outline.places false).zip t.sites ∧ p.here.mention? = some m ∧
        w.relationOf (w.contextAt ctx p) p.here m = r := by
  rw [reports, List.mem_filterMap]
  constructor
  · rintro ⟨⟨b, p⟩, hmem, hfound⟩
    obtain ⟨m, hm, heq⟩ := Option.map_eq_some_iff.1 hfound
    cases heq
    exact ⟨p, m, hmem, hm, rfl⟩
  · rintro ⟨p, m, hmem, hm, rfl⟩
    exact ⟨(a, p), hmem, by simp [hm]⟩

theorem stands_of_mem_zip (h : root.toSyntax = .ok t) {a : Address} {p : Site}
    (hmem : (a, p) ∈ (root.outline.places false).zip t.sites) :
    root.outline.Stands root.locals false [] a p :=
  (List.forall₂_iff_zip.1 (stands_places h)).2 hmem

/-- What is reported at a place is mentioned by the node that is built
there. -/
theorem exists_of_mem_reports (h : root.toSyntax = .ok t) {a : Address} {r : Relation}
    (hr : (a, r) ∈ root.outline.reports w ctx t) {part : Outline}
    (hat : root.outline.at? a = some part) :
    ∃ p m, root.outline.Stands root.locals false [] a p ∧
      part.build (fun b => root.locals (a ++ b)) = .ok [p.here.tree] ∧
      p.here.mention? = some m ∧ w.relationOf (w.contextAt ctx p) p.here m = r := by
  obtain ⟨p, m, hmem, hm, rfl⟩ := mem_reports.1 hr
  have hstands := stands_of_mem_zip h hmem
  obtain ⟨inner, hinner, hbuild⟩ := hstands.builds
  exact ⟨p, m, hstands, Option.some.inj (hat.symm.trans hinner) ▸ hbuild, hm, rfl⟩

/-- What is reported comes of an outline that may mention something. -/
theorem isMention_of_mem_reports (h : root.toSyntax = .ok t) {a : Address} {r : Relation}
    (hr : (a, r) ∈ root.outline.reports w ctx t) {part : Outline}
    (hat : root.outline.at? a = some part) : part.isMention := by
  obtain ⟨p, m, hmem, -⟩ := mem_reports.1 hr
  have hnode := isNode_of_mem_places (List.of_mem_zip hmem).1 hat
  obtain ⟨p, m, -, hbuild, hm, -⟩ := exists_of_mem_reports h hr hat
  cases part with
  | read n => rfl
  | group g ps =>
    cases g with
    | node kind tag n =>
      obtain ⟨hkind, -⟩ := build_node hbuild
      rw [Step.mention?, Step.call?, hkind] at hm
      cases kind with
      | constant => rfl
      | call => rfl
      | _ => cases hm
    | _ => cases hnode
  | _ => cases hnode

/-- A place has one site. -/
theorem site_unique (h : root.toSyntax = .ok t) {a : Address} {p q : Site}
    (hp : (a, p) ∈ (root.outline.places false).zip t.sites)
    (hq : (a, q) ∈ (root.outline.places false).zip t.sites) : p = q := by
  have hnodup : (((root.outline.places false).zip t.sites).map Prod.fst).Nodup := by
    rw [List.map_fst_zip (Nat.le_of_eq (stands_places h).length_eq)]
    exact nodup_places false root.outline
  exact (Prod.ext_iff.1 (List.inj_on_of_nodup_map hnodup hp hq rfl)).2

/-- **A node of the outline is a node of the tree**, and what is reported at
it is what the node mentions. -/
theorem exists_site (w : Walker) (ctx : WalkContext) (h : root.toSyntax = .ok t) {a : Address}
    {part : Outline} (hat : root.outline.at? a = some part) (hnode : part.isNode)
    (hout : root.outline.Outside a) (hwhole : ¬ root.outline.TakenApart a) :
    ∃ p, root.outline.Stands root.locals false [] a p ∧
      part.build (fun b => root.locals (a ++ b)) = .ok [p.here.tree] ∧
      ∀ r, (a, r) ∈ root.outline.reports w ctx t ↔
        ∃ m, p.here.mention? = some m ∧ w.relationOf (w.contextAt ctx p) p.here m = r := by
  have hplace := mem_places hat hnode hout hwhole fun _ => rfl
  obtain ⟨i, hi, rfl⟩ := List.mem_iff_getElem.1 hplace
  have hlength := (stands_places h).length_eq
  have hmem : ((root.outline.places false)[i], t.sites[i]) ∈
      (root.outline.places false).zip t.sites :=
    List.mem_iff_getElem.2 ⟨i, by simp; omega, by simp⟩
  have hstands := stands_of_mem_zip h hmem
  refine ⟨t.sites[i], hstands, ?_, fun r => ?_⟩
  · obtain ⟨inner, hinner, hbuild⟩ := hstands.builds
    exact Option.some.inj (hat.symm.trans hinner) ▸ hbuild
  · rw [mem_reports]
    constructor
    · rintro ⟨p, m, hp, hm, rfl⟩
      obtain rfl := site_unique h hp hmem
      exact ⟨m, hm, rfl⟩
    · rintro ⟨m, hm, rfl⟩
      exact ⟨_, m, hmem, hm, rfl⟩

end ConcreteNode

/-! ## The analysis of a file -/

namespace FileAnalysis

/-- The relations found in a tree that is analysed, each with its place; none
if it is not. -/
def reports (a : FileAnalysis) (root : ConcreteNode) : List (Outline.Address × Relation) :=
  match root.toSyntax with
  | .ok t => root.outline.reports ⟨a.file, a.infer⟩ {} t
  | .error _ => []

/-- An analysis that goes through has walked the tree of the program. -/
theorem exists_toSyntax {a b : FileAnalysis} {root : ConcreteNode}
    (h : a.parseSource root = (b, .ok ())) :
    ∃ t, root.toSyntax = .ok t ∧ b.result = (Walker.mk a.file a.infer).walk t {} ∧
      a.reports root = root.outline.reports ⟨a.file, a.infer⟩ {} t := by
  unfold parseSource at h
  unfold reports
  split at h
  · cases h
  · next checked hchecked =>
    obtain rfl : root = checked := by
      unfold ConcreteNode.checked at hchecked
      split at hchecked <;> cases hchecked
      rfl
    unfold walkTree at h
    cases ht : root.toSyntax with
    | error e => rw [ht] at h; cases h
    | ok t =>
      rw [ht] at h
      cases h
      exact ⟨t, rfl, rfl, rfl⟩

end FileAnalysis

end ConstGraph
