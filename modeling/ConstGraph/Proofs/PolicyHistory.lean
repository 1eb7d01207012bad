import ConstGraph.Proofs.Policies

/-!
# What a policy was shown before

A policy may be shown one graph after the other, and its members may have
been shown others on their own. All that is left of this is the last graph
shown to the whole: a policy differs from its fresh form (`fresh`) in what
was shown, showing a graph keeps the fresh form (`fresh_prepare`) and gives
the same from any policy that has it (`prepare_fresh`).

`judged_by_last_graph` says what a policy answers then, rule by rule, for
any two paths, on the graph or not; and what follows for the flags of a
project.
-/

namespace ConstGraph

/-! ## Nodes that lead to each other -/

namespace ReferenceGraph

variable {g : ReferenceGraph} {a b c : ConstPath}

/-- Both are nodes of the graph, and each leads to the other by any number
of edges. -/
structure Linked (g : ReferenceGraph) (a b : ConstPath) : Prop where
  /-- The one is a node. -/
  mem_left : a ∈ g.nodes
  /-- The other is a node. -/
  mem_right : b ∈ g.nodes
  /-- The one leads to the other. -/
  leads : Relation.ReflTransGen g.Joins a b
  /-- And the other to the one. -/
  leadsBack : Relation.ReflTransGen g.Joins b a

theorem Mutual.linked (hg : g.IsLaid) (h : g.Mutual a b) : g.Linked a b :=
  ⟨h.symm.mem_nodes hg, h.mem_nodes hg, h.1.to_reflTransGen, h.2.to_reflTransGen⟩

/-- Between different nodes there is an edge or more. -/
theorem Linked.mutual (h : g.Linked a b) (hne : a ≠ b) : g.Mutual a b :=
  ⟨(Relation.reflTransGen_iff_eq_or_transGen.mp h.leads).resolve_left hne.symm,
    (Relation.reflTransGen_iff_eq_or_transGen.mp h.leadsBack).resolve_left hne⟩

/-- A node linked to another is on a way back to itself, so it makes no
difference whether no edge counts as a way. -/
theorem mutual_and_exists_iff (hg : g.IsLaid) :
    (g.Mutual a b ∧ ∃ c, c ≠ a ∧ g.Mutual a c) ↔ g.Linked a b ∧ ∃ c, c ≠ a ∧ g.Linked a c := by
  constructor
  · rintro ⟨hab, c, hne, hac⟩
    exact ⟨hab.linked hg, c, hne, hac.linked hg⟩
  · rintro ⟨hab, c, hne, hac⟩
    have hother : g.Mutual a c := hac.mutual hne.symm
    refine ⟨?_, c, hne, hother⟩
    by_cases heq : a = b
    · subst heq
      exact hother.trans hother.symm
    · exact hab.mutual heq

/-- A node more leaves the graph laid out properly. -/
theorem IsLaid.addNode (h : g.IsLaid) (a : ConstPath) : (g.addNode a).IsLaid where
  nodup := nodup_insertNode h.nodup
  caller_mem hj := mem_insertNode.mpr (Or.inl (h.caller_mem hj))
  target_mem hj := mem_insertNode.mpr (Or.inl (h.target_mem hj))

end ReferenceGraph

namespace CyclePolicy

variable {g : ReferenceGraph} {a b : ConstPath}

/-! ## Fresh policies -/

mutual

/-- The policy before it was shown a graph. -/
def fresh : CyclePolicy → CyclePolicy
  | scc _ => strong
  | ancestry => ancestry
  | combined ps => combined (freshAll ps)
  | unspecified => unspecified

/-- Some policies before they were shown a graph. -/
def freshAll : List CyclePolicy → List CyclePolicy
  | [] => []
  | p :: ps => p.fresh :: freshAll ps

end

/-- The policy after it was shown some graphs, one after the other. -/
def shown (p : CyclePolicy) (graphs : List ReferenceGraph) : CyclePolicy :=
  graphs.foldl (fun p g => p.prepare g) p

mutual

/-- Showing a graph changes nothing but what was shown. -/
theorem fresh_prepare (g : ReferenceGraph) (p : CyclePolicy) : (p.prepare g).fresh = p.fresh := by
  cases p with
  | scc seen => rfl
  | ancestry => rfl
  | combined ps =>
    change combined (freshAll (prepareAll g ps)) = combined (freshAll ps)
    rw [freshAll_prepareAll]
  | unspecified => rfl

theorem freshAll_prepareAll (g : ReferenceGraph) (ps : List CyclePolicy) :
    freshAll (prepareAll g ps) = freshAll ps := by
  cases ps with
  | nil => rfl
  | cons p ps =>
    change (p.prepare g).fresh :: freshAll (prepareAll g ps) = p.fresh :: freshAll ps
    rw [fresh_prepare, freshAll_prepareAll]

end

mutual

/-- A graph shown takes the place of all that was shown before. -/
theorem prepare_fresh (g : ReferenceGraph) (p : CyclePolicy) : p.fresh.prepare g = p.prepare g := by
  cases p with
  | scc seen => rfl
  | ancestry => rfl
  | combined ps =>
    change combined (prepareAll g (freshAll ps)) = combined (prepareAll g ps)
    rw [prepareAll_freshAll]
  | unspecified => rfl

theorem prepareAll_freshAll (g : ReferenceGraph) (ps : List CyclePolicy) :
    prepareAll g (freshAll ps) = prepareAll g ps := by
  cases ps with
  | nil => rfl
  | cons p ps =>
    change p.fresh.prepare g :: prepareAll g (freshAll ps) = p.prepare g :: prepareAll g ps
    rw [prepare_fresh, prepareAll_freshAll]

end

/-- A history of graphs leaves a policy what it is. -/
theorem fresh_shown (p : CyclePolicy) (graphs : List ReferenceGraph) :
    (p.shown graphs).fresh = p.fresh := by
  induction graphs generalizing p with
  | nil => rfl
  | cons g graphs ih => exact (ih (p.prepare g)).trans (fresh_prepare g p)

/-- **Only the last graph counts.** -/
theorem prepare_shown (p : CyclePolicy) (history : List ReferenceGraph) (g : ReferenceGraph) :
    (p.shown history).prepare g = p.prepare g := by
  rw [← prepare_fresh, fresh_shown, prepare_fresh]

theorem shown_concat (p : CyclePolicy) (history : List ReferenceGraph) (g : ReferenceGraph) :
    p.shown (history ++ [g]) = p.prepare g :=
  (List.foldl_concat _ _ _ _).trans (p.prepare_shown history g)

/-! ## The answers -/

/-- A policy that is laid down says yes to what it finds. -/
theorem isCircular_prepare_iff {p : CyclePolicy} (hp : p.LaidDown) (hg : g.IsLaid) :
    (p.prepare g).isCircular a b = .ok true ↔ p.Finds g.Joins a b := by
  obtain ⟨answer, hanswer, hiff⟩ := isCircular_prepare hp hg a b
  rw [hanswer, ← hiff, Except.ok.injEq]

theorem isCircular_prepare_scc (hg : g.IsLaid) (seen : List (List ConstPath)) :
    ((scc seen).prepare g).isCircular a b = .ok true ↔
      g.Linked a b ∧ ∃ c, c ≠ a ∧ g.Linked a c := by
  rw [isCircular_prepare_iff (.scc seen) hg, finds_scc_iff, ReferenceGraph.mutual_and_exists_iff hg]

theorem isCircular_prepare_ancestry :
    ((ancestry : CyclePolicy).prepare g).isCircular a b = .ok true ↔ b ≠ [] ∧ b <+: a := by
  change (.ok (b.encloses a) : Except PolicyError Bool) = .ok true ↔ _
  rw [Except.ok.injEq, ConstPath.encloses_iff]

/-- **Policies taken together say yes where one of them does.** -/
theorem isCircular_prepare_combined {ps : List CyclePolicy} (hps : ∀ p ∈ ps, p.LaidDown)
    (hg : g.IsLaid) :
    ((combined ps).prepare g).isCircular a b = .ok true ↔
      ∃ p ∈ ps, (p.prepare g).isCircular a b = .ok true := by
  rw [isCircular_prepare_iff (.combined hps) hg, finds_combined_iff]
  refine exists_congr fun p => and_congr_right fun hp => ?_
  exact (isCircular_prepare_iff (hps p hp) hg).symm

end CyclePolicy

/-! ## The flags -/

namespace CircularFlags

variable {rs : List Relation} {store : DefinitionStore}

/-- What a policy was shown before does not show in the flags. -/
theorem ofRelations_shown (p : CyclePolicy) (history : List ReferenceGraph) (rs : List Relation)
    (store : DefinitionStore) :
    ofRelations (p.shown history) rs store = ofRelations p.fresh rs store := by
  rw [ofRelations, ofRelations, CyclePolicy.prepare_shown, CyclePolicy.prepare_fresh]

theorem exists_ofRelations {p : CyclePolicy} (hp : p.LaidDown) (rs : List Relation)
    (store : DefinitionStore) : ∃ f, ofRelations p rs store = .ok f :=
  (ofRelations_laidDown hp rs store).imp fun _ => And.left

/-- **The flags of policies taken together** are the flags of each. -/
theorem hasRelation_combined {ps : List CyclePolicy} (hps : ∀ p ∈ ps, p.LaidDown)
    {f : CircularFlags} (h : ofRelations (.combined ps) rs store = .ok f) (r : Relation) :
    f.hasRelation r ↔ ∃ p ∈ ps, ∃ f', ofRelations p rs store = .ok f' ∧ f'.hasRelation r := by
  have hlaid : (ReferenceGraph.ofRelations rs store).IsLaid := ReferenceGraph.ofArcs_laid _
  rw [hasRelation_iff h, CyclePolicy.isCircular_prepare_combined hps hlaid]
  constructor
  · rintro ⟨hr, hcaller, htarget, p, hp, hcircular⟩
    obtain ⟨f', hf'⟩ := exists_ofRelations (hps p hp) rs store
    exact ⟨p, hp, f', hf', (hasRelation_iff hf' r).mpr ⟨hr, hcaller, htarget, hcircular⟩⟩
  · rintro ⟨p, hp, f', hf', hmarked⟩
    obtain ⟨hr, hcaller, htarget, hcircular⟩ := (hasRelation_iff hf' r).mp hmarked
    exact ⟨hr, hcaller, htarget, p, hp, hcircular⟩

theorem hasDefinition_combined {ps : List CyclePolicy} (hps : ∀ p ∈ ps, p.LaidDown)
    {f : CircularFlags} (h : ofRelations (.combined ps) rs store = .ok f) (d : Definition) :
    f.hasDefinition d ↔ ∃ p ∈ ps, ∃ f', ofRelations p rs store = .ok f' ∧ f'.hasDefinition d := by
  rw [hasDefinition_iff h]
  constructor
  · rintro ⟨hd, r, hmarked, hpath⟩
    obtain ⟨p, hp, f', hf', hmarked'⟩ := (hasRelation_combined hps h r).mp hmarked
    exact ⟨p, hp, f', hf', (hasDefinition_iff hf' d).mpr ⟨hd, r, hmarked', hpath⟩⟩
  · rintro ⟨p, hp, f', hf', hmarked'⟩
    obtain ⟨hd, r, hmarked, hpath⟩ := (hasDefinition_iff hf' d).mp hmarked'
    exact ⟨hd, r, (hasRelation_combined hps h r).mpr ⟨p, hp, f', hf', hmarked⟩, hpath⟩

end CircularFlags

namespace CyclePolicy

open CircularFlags (ofRelations)

/-- **A policy judges by the last graph it was shown**, whatever it and its
members were shown before. It has an answer for any two paths. The rule of
a way back says yes to nodes that lead to each other, if the first of them
and another do too; that of enclosure, where the target is a nonempty
initial part of the caller; and policies taken together, where one of them
does. So the flags of a project are those that the fresh policy gives, and
the flags of policies taken together are the flags of all of them. -/
theorem judged_by_last_graph {g : ReferenceGraph} (hg : g.IsLaid) (history : List ReferenceGraph)
    (a b : ConstPath) :
    (∀ p, LaidDown p → ∃ answer, (p.shown (history ++ [g])).isCircular a b = .ok answer) ∧
      (∀ seen, ((scc seen).shown (history ++ [g])).isCircular a b = .ok true ↔
        g.Linked a b ∧ ∃ c, c ≠ a ∧ g.Linked a c) ∧
      ((ancestry.shown (history ++ [g])).isCircular a b = .ok true ↔ b ≠ [] ∧ b <+: a) ∧
      (∀ ps, (∀ p ∈ ps, LaidDown p) →
        (((combined ps).shown (history ++ [g])).isCircular a b = .ok true ↔
          ∃ p ∈ ps, (p.shown (history ++ [g])).isCircular a b = .ok true)) ∧
      (∀ (p : CyclePolicy) (rs : List Relation) store,
        ofRelations (p.shown history) rs store = ofRelations p.fresh rs store) ∧
      ∀ ps (rs : List Relation) store, (∀ p ∈ ps, LaidDown p) →
        (∀ p ∈ ps, ∃ f, ofRelations p rs store = .ok f) ∧
        ∃ f, ofRelations (combined ps) rs store = .ok f ∧
          (∀ r, f.hasRelation r ↔
            ∃ p ∈ ps, ∃ f', ofRelations p rs store = .ok f' ∧ f'.hasRelation r) ∧
          ∀ d, f.hasDefinition d ↔
            ∃ p ∈ ps, ∃ f', ofRelations p rs store = .ok f' ∧ f'.hasDefinition d := by
  simp only [shown_concat]
  refine ⟨?_, fun seen => isCircular_prepare_scc hg seen, isCircular_prepare_ancestry,
    fun ps hps => isCircular_prepare_combined hps hg,
    fun p => CircularFlags.ofRelations_shown p history, ?_⟩
  · intro p hp
    exact (isCircular_prepare hp hg a b).imp fun _ => And.left
  · intro ps rs store hps
    refine ⟨fun p hp => CircularFlags.exists_ofRelations (hps p hp) rs store, ?_⟩
    obtain ⟨f, hf⟩ := CircularFlags.exists_ofRelations (LaidDown.combined hps) rs store
    exact ⟨f, hf, CircularFlags.hasRelation_combined hps hf,
      CircularFlags.hasDefinition_combined hps hf⟩

open ReferenceGraph (ofArcs)

/-- Two paths that refer to each other, and a third that stands alone. -/
def pairAndThird (a b c : ConstPath) : ReferenceGraph := (ofArcs [(a, b), (b, a)]).addNode c

theorem pairAndThird_laid (a b c : ConstPath) : (pairAndThird a b c).IsLaid :=
  (ReferenceGraph.ofArcs_laid _).addNode c

theorem joins_pairAndThird {a b c p q : ConstPath} :
    (pairAndThird a b c).Joins p q ↔ p = a ∧ q = b ∨ p = b ∧ q = a := by
  have hjoins : (pairAndThird a b c).Joins p q ↔ (p, q) ∈ [(a, b), (b, a)] :=
    ReferenceGraph.joins_ofArcs
  simpa only [List.mem_cons, List.not_mem_nil, or_false, Prod.mk.injEq] using hjoins

theorem linked_pairAndThird (a b c : ConstPath) : (pairAndThird a b c).Linked a b := by
  have hmutual : (pairAndThird a b c).Mutual a b :=
    ⟨.single (joins_pairAndThird.mpr (Or.inl ⟨rfl, rfl⟩)),
      .single (joins_pairAndThird.mpr (Or.inr ⟨rfl, rfl⟩))⟩
  exact hmutual.linked (pairAndThird_laid a b c)

/-- The third path leads nowhere. -/
theorem not_linked_third {a b c : ConstPath} (ha : c ≠ a) (hb : c ≠ b) :
    ¬ (pairAndThird a b c).Linked a c := by
  intro h
  obtain heq | ⟨p, hjoins, -⟩ := Relation.ReflTransGen.cases_head h.leadsBack
  · exact ha heq
  · rcases joins_pairAndThird.mp hjoins with ⟨heq, -⟩ | ⟨heq, -⟩
    · exact ha heq
    · exact hb heq

/-- `A` and `C` refer to each other in the graph shown first, and `A` and
`B` in the one shown last. Two policies taken together find that of `A` and
`B`, and the one of them that asks for a way back has forgotten `C`. -/
theorem earlier_cycle_forgotten :
    ((combined [ancestry, strong]).shown
        [pairAndThird ["A"] ["C"] ["B"], pairAndThird ["A"] ["B"] ["C"]]).isCircular ["A"] ["B"] =
        .ok true ∧
      (strong.shown
        [pairAndThird ["A"] ["C"] ["B"], pairAndThird ["A"] ["B"] ["C"]]).isCircular ["A"] ["C"] ≠
        .ok true := by
  have hlaid := pairAndThird_laid ["A"] ["B"] ["C"]
  have hlinked := linked_pairAndThird ["A"] ["B"] ["C"]
  constructor
  · obtain ⟨-, hscc, -, hcombined, -, -⟩ :=
      judged_by_last_graph hlaid [pairAndThird ["A"] ["C"] ["B"]] ["A"] ["B"]
    have hstrong := (hscc []).mpr ⟨hlinked, ["B"], by simp, hlinked⟩
    exact (hcombined _ laidDown_both).mpr ⟨strong, by simp, hstrong⟩
  · obtain ⟨-, hscc, -, -, -, -⟩ :=
      judged_by_last_graph hlaid [pairAndThird ["A"] ["C"] ["B"]] ["A"] ["C"]
    intro hfound
    exact not_linked_third (by simp) (by simp) ((hscc []).mp hfound).1

end CyclePolicy

end ConstGraph
