import ConstGraph.Proofs.Circularity
import ConstGraph.Proofs.EdgeWeights
import ConstGraph.Proofs.Resolution
import Mathlib.Algebra.Ring.Nat

/-!
# The reference graph counts references

Each relation that stands in a definition and resolves to something gives
one arc, and the graph is made from the arcs one after the other. One more
arc adds one to the weight of its own edge (`weightOn_insertEdge`), and so
one to the weight of all edges together (`totalWeight_insertEdge`); it
brings in its ends as nodes and nothing else.

`references_tallied` puts together what a graph of relations shows by that
(`Tallies`): which edges there are, what each of them and all of them
weigh, and that the nodes are their ends. The order of the relations shows
in no count, and not in the edges once these are in order.
-/

namespace ConstGraph

/-! ## Edges in order -/

instance Edge.transCmp_order : Std.TransCmp (Edge.order (σ := String)) :=
  inferInstanceAs (Std.TransCmp (compareLex (compareOn Edge.caller) (compareOn Edge.target)))

theorem Edge.isLE_total (a b : Edge) : ((a.order b).isLE || (b.order a).isLE) = true := by
  have hswap : b.order a = (a.order b).swap := Std.OrientedCmp.eq_swap
  rw [hswap]
  cases a.order b <;> rfl

namespace ReferenceGraph

variable {arcs arcs' : List Arc} {p : ConstPath}

theorem arc_eq_of_isLE {a b : Edge} (hab : (a.order b).isLE) (hba : (b.order a).isLE) :
    arc a = arc b := by
  have heq : a.order b = .eq := Std.OrientedCmp.isLE_antisymm hab hba
  obtain ⟨hcaller, htarget⟩ := Ordering.then_eq_eq.mp heq
  exact Prod.ext (Std.LawfulEqCmp.eq_of_compare hcaller) (Std.LawfulEqCmp.eq_of_compare htarget)

/-- **The edges in order do not depend on the order of the arcs.** -/
theorem sortedEdges_ofArcs_perm (h : arcs.Perm arcs') :
    (ofArcs arcs).sortedEdges = (ofArcs arcs').sortedEdges := by
  have hsorted : ∀ g : ReferenceGraph, g.sortedEdges.Pairwise fun a b => (a.order b).isLE :=
    fun g => List.pairwise_mergeSort (fun _ _ _ => Std.TransCmp.isLE_trans) Edge.isLE_total g.edges
  have hperm : (ofArcs arcs).sortedEdges.Perm (ofArcs arcs').sortedEdges :=
    ((List.mergeSort_perm _ _).trans (edges_ofArcs_perm h)).trans (List.mergeSort_perm _ _).symm
  refine hperm.eq_of_pairwise ?_ (hsorted _) (hsorted _)
  intro a b ha hb hab hba
  have harc : arc a = arc b := arc_eq_of_isLE hab hba
  -- what joins the same paths stands for the same arcs
  have hweight : a.weight = b.weight := by
    rw [(mem_edges_ofArcs.mp (List.mem_mergeSort.mp ha)).2,
      (mem_edges_ofArcs.mp (List.mem_mergeSort.mp hb)).2, harc, h.count_eq]
  exact eq_of_arc_of_weight harc hweight

/-! ## Totals and nodes -/

/-- What all edges weigh together. -/
def totalWeight (edges : List Edge) : Nat := (edges.map (·.weight)).sum

/-- One more arc adds one to what all edges weigh. -/
theorem totalWeight_insertEdge (a : Arc) (edges : List Edge) :
    totalWeight (insertEdge a.1 a.2 edges) = totalWeight edges + 1 := by
  induction edges with
  | nil => rfl
  | cons e edges ih =>
    unfold totalWeight at ih
    rw [insertEdge]
    split
    · simp only [totalWeight, List.map_cons, List.sum_cons]
      omega
    · simp only [totalWeight, List.map_cons, List.sum_cons, ih]
      omega

/-- **All edges weigh as much as there are arcs.** -/
theorem totalWeight_ofArcs (arcs : List Arc) : totalWeight (ofArcs arcs).edges = arcs.length := by
  have run : ∀ g : ReferenceGraph,
      totalWeight (arcs.foldl (fun g a => g.addEdge a.1 a.2) g).edges =
        totalWeight g.edges + arcs.length := by
    induction arcs with
    | nil => exact fun g => rfl
    | cons a arcs ih =>
      intro g
      have hstep : totalWeight (g.addEdge a.1 a.2).edges = totalWeight g.edges + 1 :=
        totalWeight_insertEdge a g.edges
      rw [List.foldl_cons, ih, hstep, List.length_cons]
      omega
  exact (run empty).trans (Nat.zero_add _)

/-- **The nodes are the ends of the arcs.** -/
theorem mem_nodes_ofArcs : p ∈ (ofArcs arcs).nodes ↔ ∃ a ∈ arcs, a.1 = p ∨ a.2 = p := by
  have run : ∀ g : ReferenceGraph,
      p ∈ (arcs.foldl (fun g a => g.addEdge a.1 a.2) g).nodes ↔
        p ∈ g.nodes ∨ ∃ a ∈ arcs, a.1 = p ∨ a.2 = p := by
    induction arcs with
    | nil => simp
    | cons a arcs ih =>
      intro g
      rw [List.foldl_cons, ih, mem_nodes_addEdge]
      simp only [List.mem_cons, exists_eq_or_imp, or_assoc, eq_comm (a := p)]
  have hempty : p ∉ (empty : ReferenceGraph).nodes := List.not_mem_nil
  exact (run empty).trans (or_iff_right hempty)

theorem nodes_ofArcs_perm (h : arcs.Perm arcs') :
    (ofArcs arcs).nodes.Perm (ofArcs arcs').nodes := by
  refine (List.perm_ext_iff_of_nodup (ofArcs_laid _).nodup (ofArcs_laid _).nodup).mpr fun p => ?_
  simp only [mem_nodes_ofArcs, h.mem_iff]

/-! ## Relations -/

variable {rs : List Relation} {store : DefinitionStore}

/-- An arc occurs as often as relations make it. -/
theorem count_filterMap_arc? {c t : ConstPath} (hc : c ≠ []) (ht : t ≠ []) :
    (rs.filterMap (Relation.arc? store)).count (c, t) =
      rs.countP fun r => r.caller = c ∧ r.resolve store = t := by
  rw [List.count, List.countP_filterMap]
  refine List.countP_congr fun r _ => ?_
  have harc : ((r.arc? store).map (· == (c, t))).getD false = true ↔
      r.arc? store = some (c, t) := by
    cases r.arc? store <;> simp
  rw [harc, Relation.arc?_eq_some]
  simp [hc, ht]

/-- There are as many arcs as relations that stand in a definition and
resolve to something. -/
theorem length_filterMap_arc? :
    (rs.filterMap (Relation.arc? store)).length =
      rs.countP fun r => r.caller ≠ [] ∧ r.resolve store ≠ [] := by
  rw [List.length_filterMap_eq_countP]
  refine List.countP_congr fun r _ => ?_
  rw [Option.isSome_iff_exists, decide_eq_true_eq]
  constructor
  · rintro ⟨⟨c, t⟩, harc⟩
    obtain ⟨rfl, rfl, hc, ht⟩ := Relation.arc?_eq_some.mp harc
    exact ⟨hc, ht⟩
  · rintro ⟨hc, ht⟩
    exact ⟨_, Relation.arc?_eq_some.mpr ⟨rfl, rfl, hc, ht⟩⟩

/-- What a graph shows of the relations it stands for. -/
structure Tallies (rs : List Relation) (store : DefinitionStore) (g : ReferenceGraph) : Prop where
  /-- There is an edge exactly where some relation stands in the one path
  and resolves to the other, and neither is empty. -/
  joins : ∀ c t, g.Joins c t ↔
    c ≠ [] ∧ t ≠ [] ∧ ∃ r ∈ rs, r.caller = c ∧ r.resolve store = t
  /-- No two edges join the same paths. -/
  single : (g.edges.map arc).Nodup
  /-- An edge weighs as many relations as stand in the one path and resolve
  to the other, each as often as it is listed. -/
  weight : ∀ e ∈ g.edges,
    e.weight = rs.countP fun r => r.caller = e.caller ∧ r.resolve store = e.target
  /-- All edges weigh as many as stand in a path and resolve to one. -/
  total : (g.edges.map (·.weight)).sum =
    rs.countP fun r => r.caller ≠ [] ∧ r.resolve store ≠ []
  /-- The nodes are the ends of the edges. -/
  nodes : ∀ p, p ∈ g.nodes ↔ ∃ e ∈ g.edges, e.caller = p ∨ e.target = p
  /-- No node occurs twice. -/
  nodup : g.nodes.Nodup

theorem tallies_ofRelations (rs : List Relation) (store : DefinitionStore) :
    Tallies rs store (ofRelations rs store) where
  joins c t := by
    rw [joins_ofRelations]
    constructor
    · rintro ⟨r, hr, hcaller, htarget, hc, ht⟩
      exact ⟨hc, ht, r, hr, hcaller, htarget⟩
    · rintro ⟨hc, ht, r, hr, hcaller, htarget⟩
      exact ⟨r, hr, hcaller, htarget, hc, ht⟩
  single := (counts_ofArcs _).nodup
  weight e he := by
    obtain ⟨harc, hweight⟩ := mem_edges_ofArcs.mp he
    obtain ⟨r, -, hr⟩ := List.mem_filterMap.mp harc
    obtain ⟨-, -, hc, ht⟩ := Relation.arc?_eq_some.mp hr
    rw [hweight]
    exact count_filterMap_arc? hc ht
  total := (totalWeight_ofArcs _).trans length_filterMap_arc?
  nodes p := by
    have hedges : (∃ e ∈ (ofRelations rs store).edges, e.caller = p ∨ e.target = p) ↔
        ∃ a ∈ (ofRelations rs store).edges.map arc, a.1 = p ∨ a.2 = p := by
      simp [arc]
    rw [hedges]
    simp only [(counts_ofArcs _).mem, ofRelations, mem_nodes_ofArcs]
  nodup := (ofArcs_laid _).nodup

/-- **The reference graph counts references.** It has an edge where there
is a relation from the one path to the other, the edge weighs as many as
there are, and all edges weigh as many as there are relations that give
one; the nodes are the ends of the edges. In another order the relations
give the same nodes and edges, and edges in order that are one list. -/
theorem references_tallied (rs : List Relation) (store : DefinitionStore) :
    Tallies rs store (ofRelations rs store) ∧
      ∀ rs', rs.Perm rs' →
        (ofRelations rs store).nodes.Perm (ofRelations rs' store).nodes ∧
          (ofRelations rs store).edges.Perm (ofRelations rs' store).edges ∧
          (ofRelations rs store).sortedEdges = (ofRelations rs' store).sortedEdges := by
  refine ⟨tallies_ofRelations rs store, fun rs' h => ?_⟩
  have harcs := h.filterMap (Relation.arc? store)
  exact ⟨nodes_ofArcs_perm harcs, edges_ofArcs_perm harcs, sortedEdges_ofArcs_perm harcs⟩

/-- The mention of a constant from the root, in the class `A`. -/
def rootedMention (name : String) (line : Int) : Relation :=
  ⟨["", name], ["A"], "", "", "a.rb", line⟩

theorem resolve_rootedMention (name : String) (line : Int) (store : DefinitionStore) :
    (rootedMention name line).resolve store = [name] := by
  rw [Relation.resolve_of_isAbsolute rfl]
  exact ConstPath.unroot_marker [name]

/-- `A` mentions `B` twice and itself once: the edge to `B` weighs two, and
the mentions may come in another order. -/
theorem repeated_mention_counted :
    (∃ e ∈ (ofRelations [rootedMention "B" 2, rootedMention "A" 3, rootedMention "B" 2]
        .empty).edges, e.caller = ["A"] ∧ e.target = ["B"] ∧ e.weight = 2) ∧
      (ofRelations [rootedMention "B" 2, rootedMention "A" 3, rootedMention "B" 2]
          .empty).sortedEdges =
        (ofRelations [rootedMention "A" 3, rootedMention "B" 2, rootedMention "B" 2]
          .empty).sortedEdges := by
  obtain ⟨htally, hperm⟩ := references_tallied
    [rootedMention "B" 2, rootedMention "A" 3, rootedMention "B" 2] .empty
  constructor
  · obtain ⟨e, he, hcaller, htarget⟩ := (htally.joins ["A"] ["B"]).mpr
      ⟨by simp, by simp, _, List.mem_cons_self, rfl, resolve_rootedMention "B" 2 .empty⟩
    refine ⟨e, he, hcaller, htarget, ?_⟩
    have hown : ∀ name line, (rootedMention name line).caller = ["A"] := fun _ _ => rfl
    rw [htally.weight e he, hcaller, htarget]
    simp [resolve_rootedMention, hown]
  · exact (hperm _ (List.Perm.swap _ _ _)).2.2

end ReferenceGraph

end ConstGraph
