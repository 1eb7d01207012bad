import ConstGraph.Proofs.Attribution
import ConstGraph.Proofs.LocalReads
import ConstGraph.Proofs.ProperOutlines

/-!
# Where the nodes of a tree come from

A place of an outline is the address of a node that a walk of its tree
comes to. `Outline.places` lists them in pre-order, and they are matched
one by one with the sites of the tree (`placesMatch_of_proper`): the
outline at the address builds the node at the site, and the outlines that
come up before it, in its own group and in those around it, build the
siblings that the walk has passed (`Site.past`).

Two things make the places of an outline differ from its addresses. What
stands where a call has its block is taken apart, so that its children take
its place; and a walk goes on neither below a constant nor to the name of a
class or module.
-/

namespace ConstGraph

/-! ## What a walk has passed -/

/-- The siblings passed on the way down to what is inside some nodes, since
the last class, module or method was entered. -/
def passedWithin : List Step → List SyntaxTree
  | [] => []
  | s :: above => if s.hidesLocals then [] else passedWithin above ++ s.elders

/-- The siblings passed on the way down to a site, since the last class,
module or method was entered. -/
def Site.past (p : Site) : List SyntaxTree := passedWithin p.above ++ p.here.elders

namespace SyntaxTree

theorem sitesAmong_append (above : List Step) (elders ts us : List SyntaxTree) :
    sitesAmong above elders (ts ++ us) =
      sitesAmong above elders ts ++ sitesAmong above (elders ++ ts) us := by
  induction ts generalizing elders with
  | nil => simp
  | cons t ts ih =>
    rw [List.cons_append, sitesAmong_cons, sitesAmong_cons, ih, List.append_assoc,
      List.append_assoc, List.singleton_append]

theorem sitesAmong_of_not_isNode {ts : List SyntaxTree} (h : ∀ t ∈ ts, t.isNode = false)
    (above : List Step) (elders : List SyntaxTree) : sitesAmong above elders ts = [] := by
  induction ts generalizing elders with
  | nil => simp
  | cons t ts ih =>
    rw [sitesAmong_cons, sitesFrom_of_not_isNode (h t List.mem_cons_self), List.nil_append]
    exact ih (fun u hu => h u (List.mem_cons_of_mem _ hu)) _

theorem sitesAmong_singleton (above : List Step) (elders : List SyntaxTree) (t : SyntaxTree) :
    sitesAmong above elders [t] = t.sitesFrom above elders := by
  rw [sitesAmong_cons, sitesAmong_nil, List.append_nil]

end SyntaxTree

namespace Outline

/-! ## Groups and their parts -/

/-- The trees that are left of some trees, which may be taken apart. -/
def laid (apart : Bool) (ts : List SyntaxTree) : List SyntaxTree :=
  if apart then ts.flatMap (·.children) else ts

theorem laid_append (apart : Bool) (ts us : List SyntaxTree) :
    laid apart (ts ++ us) = laid apart ts ++ laid apart us := by
  cases apart <;> simp [laid]

end Outline

namespace Grouping

/-- The trees of the parts are taken apart. -/
def takesApart : Grouping → Bool
  | splice => true
  | _ => false

/-- The parts are the children of a node. -/
def isNode : Grouping → Bool
  | node .. => true
  | _ => false

/-- A walk goes on to the part of this number: not below a constant, and
not to the name of a class or module. -/
def enters : Grouping → Nat → Bool
  | node .constant _ _, _ => false
  | node .moduleDef _ _, i => i != 0
  | node .classDef _ _, i => i != 0
  | _, _ => true

/-- No local variable is known inside the group: it is a class, a module or
a method. -/
def hidesLocals : Grouping → Bool
  | node .moduleDef _ _ | node .classDef _ _ | node .methodDef _ _ | node .singletonDef _ _ => true
  | _ => false

end Grouping

namespace Outline

/-! ## Places -/

/-- The part an address leads to is one a walk goes on to; of a group that
is taken apart every part is. -/
def leadsOn (apart : Bool) (g : Grouping) (a : Address) : Bool := apart || g.enters (a.headD 0)

mutual

/-- The addresses of the nodes a walk of the outline's trees comes to, in
pre-order. If the outline is taken apart, its own node is not among them. -/
def places (apart : Bool) : Outline → List Address
  | read _ => if apart then [] else [[]]
  | group g ps =>
    (if !apart && g.isNode then [[]] else []) ++
      (placesAll g.takesApart 0 ps).filter (leadsOn apart g)
  | _ => []

/-- The places of some parts, the first of which has the number `i`. -/
def placesAll (apart : Bool) (i : Nat) : List Outline → List Address
  | [] => []
  | o :: os => (places apart o).map (i :: ·) ++ placesAll apart (i + 1) os

end

mutual

/-- The addresses of the nodes at the top of the outline's trees. -/
def tops (apart : Bool) : Outline → List Address
  | read _ => if apart then [] else [[]]
  | group g ps => if !apart && g.isNode then [[]] else topsAll g.takesApart 0 ps
  | _ => []

/-- The tops of some parts, the first of which has the number `i`. -/
def topsAll (apart : Bool) (i : Nat) : List Outline → List Address
  | [] => []
  | o :: os => (tops apart o).map (i :: ·) ++ topsAll apart (i + 1) os

end

/-- The tops of the first parts of a group, of those a walk goes on to. -/
def before (apart : Bool) (g : Grouping) (front : List Outline) : List Address :=
  (topsAll g.takesApart 0 front).filter (leadsOn apart g)

/-- A class, module or method stands around the address. -/
def hides (apart : Bool) (o : Outline) : Address → Bool
  | [] => false
  | i :: rest =>
    match o with
    | group g ps =>
      (!apart && g.hidesLocals) ||
        match ps[i]? with
        | some part => part.hides g.takesApart rest
        | none => false
    | _ => false

/-- The places a walk has passed on its way to an address, since the last
class, module or method was entered: what stands before it in its own group
and in the groups around it, in that order from the outside in. -/
def seen (apart : Bool) (o : Outline) : Address → List Address
  | [] => []
  | i :: rest =>
    match o with
    | group g ps =>
      match ps[i]? with
      | some part =>
        (if part.hides g.takesApart rest then [] else before apart g (ps.take i)) ++
          (part.seen g.takesApart rest).map (i :: ·)
      | none => []
    | _ => []

theorem hides_cons {apart : Bool} {g : Grouping} {ps : List Outline} {i : Nat} {part : Outline}
    (hi : ps[i]? = some part) (a : Address) :
    (group g ps).hides apart (i :: a) = (!apart && g.hidesLocals || part.hides g.takesApart a) := by
  rw [hides, hi]

theorem seen_cons {apart : Bool} {g : Grouping} {ps : List Outline} {i : Nat} {part : Outline}
    (hi : ps[i]? = some part) (a : Address) :
    (group g ps).seen apart (i :: a) =
      (if part.hides g.takesApart a then [] else before apart g (ps.take i)) ++
        (part.seen g.takesApart a).map (i :: ·) := by
  rw [seen, hi]

theorem topsAll_append (apart : Bool) (i : Nat) (os ps : List Outline) :
    topsAll apart i (os ++ ps) = topsAll apart i os ++ topsAll apart (i + os.length) ps := by
  induction os generalizing i with
  | nil => simp [topsAll]
  | cons o os ih =>
    rw [List.cons_append, topsAll, topsAll, ih, List.append_assoc, List.length_cons]
    congr 3
    omega

/-- One more part adds its own tops, unless a walk does not go on to it. -/
theorem before_concat (apart : Bool) (g : Grouping) (front : List Outline) (o : Outline)
    (henter : leadsOn apart g [front.length]) :
    before apart g (front ++ [o]) =
      before apart g front ++ (tops g.takesApart o).map (front.length :: ·) := by
  have hall : ∀ a ∈ (tops g.takesApart o).map (front.length :: ·), leadsOn apart g a := by
    intro a ha
    obtain ⟨b, -, rfl⟩ := List.mem_map.1 ha
    exact henter
  rw [before, topsAll_append, List.filter_append, topsAll, topsAll, List.append_nil, Nat.zero_add,
    List.filter_eq_self.2 hall]
  rfl

theorem exists_head_of_mem_placesAll {apart : Bool} {i : Nat} {os : List Outline} {a : Address}
    (h : a ∈ placesAll apart i os) : ∃ j rest, i ≤ j ∧ a = j :: rest := by
  induction os generalizing i with
  | nil => simp [placesAll] at h
  | cons o os ih =>
    rw [placesAll, List.mem_append] at h
    rcases h with h | h
    · obtain ⟨b, -, rfl⟩ := List.mem_map.1 h
      exact ⟨i, b, Nat.le_refl _, rfl⟩
    · obtain ⟨j, rest, hj, rfl⟩ := ih h
      exact ⟨j, rest, by omega, rfl⟩

/-! ## What is built at an address -/

/-- The outline at the address builds the tree. -/
def BuildsAt (locals : Address → String → Bool) (o : Outline) (a : Address) (t : SyntaxTree) :
    Prop :=
  ∃ part, o.at? a = some part ∧ part.build (fun b => locals (a ++ b)) = .ok [t]

section

variable {locals : Address → String → Bool} {apart : Bool} {g : Grouping} {ps : List Outline}
  {o : Outline} {ts us : List SyntaxTree}

theorem buildsAt_part {i : Nat} {part : Outline} (hi : ps[i]? = some part) {a : Address}
    {t : SyntaxTree} (h : part.BuildsAt (fun b => locals (i :: b)) a t) :
    (group g ps).BuildsAt locals (i :: a) t := by
  obtain ⟨inner, hat, hbuild⟩ := h
  exact ⟨inner, (at?_cons hi a).trans hat, hbuild⟩

theorem buildAll_cons {i : Nat} {os : List Outline} (h : buildAll locals i (o :: os) = .ok us) :
    ∃ ts vs, o.build (fun a => locals (i :: a)) = .ok ts ∧ buildAll locals (i + 1) os = .ok vs ∧
      us = ts ++ vs := by
  rw [buildAll] at h
  cases ho : o.build (fun a => locals (i :: a)) with
  | error e => rw [ho] at h; cases h
  | ok ts =>
    cases hos : buildAll locals (i + 1) os with
    | error e => rw [ho, hos] at h; cases h
    | ok vs =>
      rw [ho, hos] at h
      cases h
      exact ⟨ts, vs, rfl, rfl, rfl⟩

theorem build_group (h : (group g ps).build locals = .ok ts) :
    ∃ us, buildAll locals 0 ps = .ok us ∧ g.gather us = .ok ts := by
  rw [build] at h
  cases hps : buildAll locals 0 ps with
  | error e => rw [hps] at h; cases h
  | ok us => rw [hps] at h; exact ⟨us, rfl, h⟩

theorem gather_node {kind : NodeKind} {tag : String} {n : ConcreteNode}
    (h : (Grouping.node kind tag n).gather us = .ok ts) :
    ∃ span, n.lines = .ok span ∧ ts = [.node kind us span tag] := by
  rw [Grouping.gather] at h
  cases hspan : n.lines with
  | error e => rw [hspan] at h; cases h
  | ok span => rw [hspan] at h; cases h; exact ⟨span, rfl, rfl⟩

theorem build_read {n : ConcreteNode} (h : (read n).build locals = .ok ts) :
    ∃ span, n.lines = .ok span ∧ ts = [readAs (locals [] n.text) n span] := by
  rw [build] at h
  cases hspan : n.lines with
  | error e => rw [hspan] at h; cases h
  | ok span => rw [hspan] at h; cases h; exact ⟨span, rfl, rfl⟩

/-- A single outline builds one tree. -/
theorem exists_build_single (ho : o.isSingle) (h : o.build locals = .ok ts) : ∃ t, ts = [t] := by
  cases o with
  | leaf t => cases h; exact ⟨t, rfl⟩
  | read n =>
    obtain ⟨span, -, rfl⟩ := build_read h
    exact ⟨_, rfl⟩
  | declare n => cases ho
  | tooDeep => cases h
  | group g ps =>
    cases g with
    | node kind tag n =>
      obtain ⟨us, -, hus⟩ := build_group h
      obtain ⟨span, -, rfl⟩ := gather_node hus
      exact ⟨_, rfl⟩
    | _ => cases ho

/-- Apart from a node that stands as it is, a group leaves what its parts
leave. -/
theorem laid_gather (hnode : (!apart && g.isNode) = false) (hsingle : apart → (group g ps).isSingle)
    (h : g.gather us = .ok ts) : laid apart ts = laid g.takesApart us := by
  cases g with
  | node kind tag n =>
    obtain rfl : apart = true := by simpa [Grouping.isNode] using hnode
    obtain ⟨span, -, rfl⟩ := gather_node h
    simp [laid, Grouping.takesApart, SyntaxTree.children]
  | splice =>
    obtain rfl : apart = false := by simpa [isSingle] using hsingle
    cases h
    rfl
  | body =>
    obtain rfl : apart = false := by simpa [isSingle] using hsingle
    cases h
    rfl
  | block =>
    obtain rfl : apart = false := by simpa [isSingle] using hsingle
    cases h
    rfl

/-- What is taken apart is single. -/
theorem isSingle_of_takesApart (hfits : g.Fits ps) (hg : g.takesApart) : ∀ o ∈ ps, o.isSingle := by
  cases g with
  | splice =>
    obtain ⟨part, rfl, hpart⟩ := hfits
    simpa using hpart
  | _ => cases hg

/-- The tree of a read has only names and gaps for children. -/
theorem children_readAs (isLocal : Bool) (n : ConcreteNode) (span : LineSpan) :
    ∀ t ∈ (readAs isLocal n span).children, t.isNode = false := by
  cases isLocal <;> simp [readAs, SyntaxTree.children, SyntaxTree.isNode]

end

/-! ## The tops of an outline are the tops of its trees -/

/-- The tops are matched with the nodes that are left of the trees. -/
def TopsMatch (o : Outline) : Prop :=
  ∀ (locals : Address → String → Bool) (apart : Bool) (ts : List SyntaxTree),
    (apart → o.isSingle) → o.build locals = .ok ts →
      List.Forall₂ (o.BuildsAt locals) (o.tops apart) ((laid apart ts).filter (·.isNode))

theorem topsMatch_parts {g : Grouping} {ps : List Outline} {locals : Address → String → Bool}
    {apart : Bool} (front : List Outline) {os : List Outline} (hps : ps = front ++ os)
    (hos : ∀ o ∈ os, o.TopsMatch) (hsingle : apart → ∀ o ∈ os, o.isSingle) {us : List SyntaxTree}
    (h : buildAll locals front.length os = .ok us) :
    List.Forall₂ ((group g ps).BuildsAt locals) (topsAll apart front.length os)
      ((laid apart us).filter (·.isNode)) := by
  induction os generalizing front us with
  | nil =>
    cases h
    cases apart <;> exact .nil
  | cons o os ih =>
    obtain ⟨ts, vs, hts, hvs, rfl⟩ := buildAll_cons h
    have hi : ps[front.length]? = some o := by simp [hps]
    rw [topsAll, laid_append, List.filter_append]
    refine List.rel_append ?_ ?_
    · refine List.forall₂_map_left_iff.2 (List.Forall₂.imp (fun a t hat => buildsAt_part hi hat) ?_)
      exact hos o List.mem_cons_self _ apart ts (fun ha => hsingle ha o List.mem_cons_self) hts
    · have hnext : buildAll locals (front ++ [o]).length os = .ok vs := by
        rw [List.length_append]
        exact hvs
      have hrest := ih (front ++ [o]) (by simp [hps])
        (fun o ho => hos o (List.mem_cons_of_mem _ ho))
        (fun ha o ho => hsingle ha o (List.mem_cons_of_mem _ ho)) hnext
      rwa [List.length_append] at hrest

theorem topsMatch_of_proper {o : Outline} (ho : o.Proper) : o.TopsMatch := by
  induction ho with
  | @leaf t ht =>
    intro locals apart ts _ h
    cases h
    cases apart with
    | false => simp [laid, tops, ht]
    | true =>
      cases t with
      | node kind children span tag => cases ht
      | _ => exact .nil
  | read n =>
    intro locals apart ts _ h
    obtain ⟨span, hspan, rfl⟩ := build_read h
    cases apart with
    | false =>
      have hnode : (readAs (locals [] n.text) n span).isNode = true := by
        cases locals [] n.text <;> rfl
      rw [laid, if_neg (by simp), List.filter_cons_of_pos hnode]
      exact .cons ⟨read n, rfl, h⟩ .nil
    | true =>
      have hnone : (laid true [readAs (locals [] n.text) n span]).filter (·.isNode) = [] := by
        rw [List.filter_eq_nil_iff]
        intro t ht
        simp only [laid, if_true, List.flatMap_cons, List.flatMap_nil, List.append_nil] at ht
        simp [children_readAs _ _ _ t ht]
      rw [hnone]
      exact .nil
  | declare n =>
    intro locals apart ts _ h
    cases h
    cases apart <;> exact .nil
  | tooDeep =>
    intro locals apart ts _ h
    cases h
  | @group g ps hps hfits ih =>
    intro locals apart ts hsingle h
    obtain ⟨us, hus, hts⟩ := build_group h
    rw [tops]
    by_cases hnode : (!apart && g.isNode) = true
    · rw [if_pos hnode]
      obtain ⟨hapart, hg⟩ : apart = false ∧ g.isNode = true := by simpa using hnode
      subst hapart
      cases g with
      | node kind tag n =>
        obtain ⟨span, -, rfl⟩ := gather_node hts
        exact .cons ⟨_, rfl, h⟩ .nil
      | _ => cases hg
    · have hnode : (!apart && g.isNode) = false := by simpa using hnode
      rw [if_neg (by simp [hnode]), laid_gather hnode hsingle hts]
      exact topsMatch_parts [] rfl ih (isSingle_of_takesApart hfits) hus

/-! ## The places of an outline are the sites of its trees -/

/-- The address is where the site comes from: the outline there builds the
node, and what has been seen on the way builds what the walk has passed,
after what it had passed before the outline. -/
structure Stands (locals : Address → String → Bool) (apart : Bool) (passed : List SyntaxTree)
    (o : Outline) (a : Address) (p : Site) : Prop where
  /-- The outline at the address builds the node at the site. -/
  builds : o.BuildsAt locals a p.here.tree
  /-- What was seen on the way builds what was passed. -/
  past : ∃ rest, p.past = (if o.hides apart a then [] else passed) ++ rest ∧
    List.Forall₂ (o.BuildsAt locals) (o.seen apart a) (rest.filter (·.isNode))

/-- The places are matched with the sites of what is left of the trees,
wherever these stand. -/
def PlacesMatch (o : Outline) : Prop :=
  ∀ (locals : Address → String → Bool) (apart : Bool) (ts : List SyntaxTree) (above : List Step)
    (elders : List SyntaxTree), (apart → o.isSingle) → o.build locals = .ok ts →
      List.Forall₂ (o.Stands locals apart (passedWithin above ++ elders)) (o.places apart)
        (SyntaxTree.sitesAmong above elders (laid apart ts))

section

variable {g : Grouping} {ps : List Outline} {locals : Address → String → Bool} {apart : Bool}

/-- A place of a part is one of the group: what stands before the part has
been passed too. -/
theorem stands_part {front os : List Outline} {o : Outline} (hps : ps = front ++ o :: os)
    {passed entered met : List SyntaxTree}
    (hentered : entered = if !apart && g.hidesLocals then [] else passed)
    (hmet : List.Forall₂ ((group g ps).BuildsAt locals) (before apart g front)
      (met.filter (·.isNode)))
    {a : Address} {p : Site}
    (h : o.Stands (fun b => locals (front.length :: b)) g.takesApart (entered ++ met) a p) :
    (group g ps).Stands locals apart passed (front.length :: a) p := by
  have hi : ps[front.length]? = some o := by simp [hps]
  have htake : ps.take front.length = front := by simp [hps]
  obtain ⟨rest, hpast, hseen⟩ := h.past
  refine ⟨buildsAt_part hi h.builds,
    (if o.hides g.takesApart a then [] else met) ++ rest, ?_, ?_⟩
  · rw [hpast, hides_cons hi, hentered]
    cases o.hides g.takesApart a <;> cases !apart && g.hidesLocals <;> simp
  · rw [seen_cons hi, htake, List.filter_append]
    refine List.rel_append ?_ (List.forall₂_map_left_iff.2 ?_)
    · cases o.hides g.takesApart a with
      | true => exact .nil
      | false => exact hmet
    · exact hseen.imp fun b t hb => buildsAt_part hi hb

/-- The parts of a group come up one after the other, each after what the
parts before it have left. -/
theorem placesMatch_parts (front : List Outline) {os : List Outline} (hps : ps = front ++ os)
    (hos : ∀ o ∈ os, o.PlacesMatch) (htops : ∀ o ∈ os, o.TopsMatch)
    (hsingle : g.takesApart → ∀ o ∈ os, o.isSingle)
    (hleads : ∀ i, front.length ≤ i → leadsOn apart g [i]) {us : List SyntaxTree}
    (h : buildAll locals front.length os = .ok us) {passed : List SyntaxTree}
    {above : List Step} {elders : List SyntaxTree}
    (hentered : passedWithin above ++ elders = if !apart && g.hidesLocals then [] else passed)
    (met : List SyntaxTree)
    (hmet : List.Forall₂ ((group g ps).BuildsAt locals) (before apart g front)
      (met.filter (·.isNode))) :
    List.Forall₂ ((group g ps).Stands locals apart passed) (placesAll g.takesApart front.length os)
      (SyntaxTree.sitesAmong above (elders ++ met) (laid g.takesApart us)) := by
  induction os generalizing front us met with
  | nil =>
    cases h
    cases g.takesApart <;> simp [laid, placesAll]
  | cons o os ih =>
    obtain ⟨ts, vs, hts, hvs, rfl⟩ := buildAll_cons h
    have hi : ps[front.length]? = some o := by simp [hps]
    have hone : g.takesApart → o.isSingle := fun hg => hsingle hg o List.mem_cons_self
    rw [placesAll, laid_append, SyntaxTree.sitesAmong_append]
    refine List.rel_append (List.forall₂_map_left_iff.2 ?_) ?_
    · have ho := hos o List.mem_cons_self (fun b => locals (front.length :: b)) g.takesApart ts
        above (elders ++ met) hone hts
      rw [← List.append_assoc] at ho
      exact ho.imp fun a p hap => stands_part hps hentered hmet hap
    · -- the part has been passed by what comes after it
      have hmore : List.Forall₂ ((group g ps).BuildsAt locals) (before apart g (front ++ [o]))
          ((met ++ laid g.takesApart ts).filter (·.isNode)) := by
        rw [before_concat apart g front o (hleads _ (Nat.le_refl _)), List.filter_append]
        refine List.rel_append hmet (List.forall₂_map_left_iff.2 ?_)
        exact (htops o List.mem_cons_self _ g.takesApart ts hone hts).imp
          fun a t hat => buildsAt_part hi hat
      have hnext : buildAll locals (front ++ [o]).length os = .ok vs := by
        rw [List.length_append]
        exact hvs
      have hrest := ih (front ++ [o]) (by simp [hps])
        (fun o ho => hos o (List.mem_cons_of_mem _ ho))
        (fun o ho => htops o (List.mem_cons_of_mem _ ho))
        (fun hg o ho => hsingle hg o (List.mem_cons_of_mem _ ho))
        (fun i hle => hleads i (by rw [List.length_append] at hle; omega)) hnext _ hmore
      rwa [List.length_append, ← List.append_assoc] at hrest

/-- Where a walk goes on to every part, every place of the parts is kept. -/
theorem filter_leadsOn {i : Nat} {os : List Outline} (hleads : ∀ j, i ≤ j → leadsOn apart g [j]) :
    (placesAll g.takesApart i os).filter (leadsOn apart g) = placesAll g.takesApart i os := by
  rw [List.filter_eq_self]
  intro a ha
  obtain ⟨j, rest, hj, rfl⟩ := exists_head_of_mem_placesAll ha
  exact hleads j hj

/-- The places below a node are the sites below it: all its parts come up
in order, but for those a walk does not go on to. -/
theorem placesMatch_below {kind : NodeKind} {tag : String} {n : ConcreteNode}
    (hg : g = .node kind tag n) (hps : ∀ o ∈ ps, o.PlacesMatch) (htops : ∀ o ∈ ps, o.TopsMatch)
    (hfits : g.Fits ps) {us : List SyntaxTree} (h : buildAll locals 0 ps = .ok us)
    {s : Step} (hs : s.kind = kind) {above : List Step} :
    List.Forall₂ ((group g ps).Stands locals false (passedWithin above ++ s.elders))
      ((placesAll g.takesApart 0 ps).filter (leadsOn false g))
      (SyntaxTree.sitesAmong (s :: above) [] (kind.entered us)) := by
  subst hg
  have hentered : passedWithin (s :: above) ++ [] =
      if !false && (Grouping.node kind tag n).hidesLocals then []
      else passedWithin above ++ s.elders := by
    rw [passedWithin, Step.hidesLocals, hs, List.append_nil]
    cases kind <;> rfl
  have hnone : ∀ qs : List Outline, Grouping.takesApart (.node kind tag n) →
      ∀ o ∈ qs, o.isSingle := fun _ happart => absurd happart Bool.false_ne_true
  by_cases hconst : kind = .constant
  · -- nothing below a constant is a site
    subst hconst
    have hnil : (placesAll (Grouping.node .constant tag n).takesApart 0 ps).filter
        (leadsOn false (.node .constant tag n)) = [] := by
      simp [List.filter_eq_nil_iff, leadsOn, Grouping.enters]
    rw [hnil, NodeKind.entered, SyntaxTree.sitesAmong_nil]
    exact .nil
  by_cases hnamed : kind = .moduleDef ∨ kind = .classDef
  · -- the first part is the name, and the rest is entered
    obtain ⟨name, rest, rfl, hname⟩ : ∃ name rest, ps = name :: rest ∧ name.isSingle := by
      obtain rfl | rfl := hnamed <;> exact hfits
    have hleads : ∀ i, 1 ≤ i → leadsOn false (.node kind tag n) [i] := by
      intro i hi
      obtain rfl | rfl := hnamed <;> simp [leadsOn, Grouping.enters] <;> omega
    have hfirst : ∀ as : List Address,
        (as.map (0 :: ·)).filter (leadsOn false (.node kind tag n)) = [] := by
      intro as
      rw [List.filter_eq_nil_iff]
      intro a ha
      obtain ⟨b, -, rfl⟩ := List.mem_map.1 ha
      obtain rfl | rfl := hnamed <;> simp [leadsOn, Grouping.enters]
    have hbefore : before false (.node kind tag n) [name] = [] := by
      rw [before, topsAll, topsAll, List.append_nil, hfirst]
    obtain ⟨ts, vs, hts, hvs, rfl⟩ := buildAll_cons h
    obtain ⟨t, rfl⟩ := exists_build_single hname hts
    have hsites : kind.entered ([t] ++ vs) = vs := by
      obtain rfl | rfl := hnamed <;> rfl
    have hrest := placesMatch_parts (g := .node kind tag n) [name] rfl
      (fun o ho => hps o (List.mem_cons_of_mem _ ho))
      (fun o ho => htops o (List.mem_cons_of_mem _ ho)) (hnone rest) hleads hvs hentered []
      (by rw [hbefore]; exact .nil)
    rw [placesAll, List.filter_append, hfirst, List.nil_append, filter_leadsOn hleads, hsites]
    exact hrest
  · have hleads : ∀ i, 0 ≤ i → leadsOn false (.node kind tag n) [i] := by
      intro i _
      cases kind <;> simp_all [leadsOn, Grouping.enters]
    have hsites : kind.entered us = us := by
      cases kind <;> simp_all [NodeKind.entered]
    rw [filter_leadsOn hleads, hsites]
    exact placesMatch_parts [] rfl hps htops (hnone ps) hleads h hentered [] .nil

end

/-- **The places of a proper outline are the sites of its trees.** The
induction is on the outline; what stands above the trees and before them is
any. -/
theorem placesMatch_of_proper {o : Outline} (ho : o.Proper) : o.PlacesMatch := by
  induction ho with
  | @leaf t ht =>
    intro locals apart ts above elders _ h
    cases h
    cases t with
    | node kind children span tag => cases ht
    | _ => cases apart <;> simp [laid, places, SyntaxTree.sitesAmong_cons, SyntaxTree.children]
  | read n =>
    intro locals apart ts above elders _ h
    obtain ⟨span, hspan, rfl⟩ := build_read h
    cases apart with
    | false =>
      obtain ⟨kind, children, hread⟩ : ∃ kind children,
          readAs (locals [] n.text) n span = .node kind children span "" := by
        cases locals [] n.text <;> exact ⟨_, _, rfl⟩
      have hchildren := children_readAs (locals [] n.text) n span
      rw [hread] at hchildren h ⊢
      have hnone : ∀ t ∈ kind.entered children, t.isNode = false := fun t ht =>
        hchildren t ((kind.entered_sublist children).subset ht)
      rw [laid, if_neg (by simp), SyntaxTree.sitesAmong_singleton, SyntaxTree.sitesFrom_node,
        SyntaxTree.sitesAmong_of_not_isNode hnone]
      exact .cons ⟨⟨read n, rfl, h⟩, [], by simp [hides, Site.past], .nil⟩ .nil
    | true =>
      have hnone : ∀ t ∈ laid true [readAs (locals [] n.text) n span], t.isNode = false := by
        simpa [laid] using children_readAs (locals [] n.text) n span
      rw [SyntaxTree.sitesAmong_of_not_isNode hnone]
      exact .nil
  | declare n =>
    intro locals apart ts above elders _ h
    cases h
    cases apart <;> simp [laid, places]
  | tooDeep =>
    intro locals apart ts above elders _ h
    cases h
  | @group g ps hps hfits ih =>
    intro locals apart ts above elders hsingle h
    have htops : ∀ o ∈ ps, o.TopsMatch := fun o ho => topsMatch_of_proper (hps o ho)
    obtain ⟨us, hus, hts⟩ := build_group h
    rw [places]
    by_cases hnode : (!apart && g.isNode) = true
    · obtain ⟨hapart, hg⟩ : apart = false ∧ g.isNode = true := by simpa using hnode
      subst hapart
      cases g with
      | node kind tag n =>
        obtain ⟨span, -, rfl⟩ := gather_node hts
        rw [if_pos hnode, laid, if_neg (by simp), SyntaxTree.sitesAmong_singleton,
          SyntaxTree.sitesFrom_node]
        refine .cons ⟨⟨_, rfl, h⟩, [], by simp [hides, Site.past], .nil⟩ ?_
        exact placesMatch_below (s := ⟨kind, us, span, tag, elders⟩) rfl ih htops hfits hus rfl
      | _ => cases hg
    · -- the group leaves its parts where it stands
      have hnode : (!apart && g.isNode) = false := by simpa using hnode
      have hleads : ∀ i, 0 ≤ i → leadsOn apart g [i] := by
        intro i _
        cases g with
        | node kind tag n =>
          obtain rfl : apart = true := by simpa [Grouping.isNode] using hnode
          rfl
        | _ => simp [leadsOn, Grouping.enters]
      have hentered : passedWithin above ++ elders =
          if !apart && g.hidesLocals then [] else passedWithin above ++ elders := by
        cases g with
        | node kind tag n =>
          obtain rfl : apart = true := by simpa [Grouping.isNode] using hnode
          rfl
        | _ => simp [Grouping.hidesLocals]
      have hall := placesMatch_parts [] rfl ih htops (isSingle_of_takesApart hfits) hleads hus
        hentered [] .nil
      rw [if_neg (by simp [hnode]), List.nil_append, filter_leadsOn hleads,
        laid_gather hnode hsingle hts]
      rwa [List.append_nil] at hall

end Outline

end ConstGraph
