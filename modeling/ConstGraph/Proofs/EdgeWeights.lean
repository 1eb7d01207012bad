import ConstGraph.Proofs.Reachability
import Mathlib.Data.List.Perm.Basic

/-!
# The weights of the edges

The graph of some arcs has one edge for each arc there is, and the edge
weighs as often as the arc occurs (`mem_edges_ofArcs`). The order of the
arcs shows in the order of the edges only (`edges_ofArcs_perm`).
-/

namespace ConstGraph

namespace ReferenceGraph

/-- An arc: where an edge starts and where it ends. -/
abbrev Arc := ConstPath × ConstPath

/-- The arc of an edge. -/
def arc (e : Edge) : Arc := (e.caller, e.target)

theorem eq_of_arc_of_weight {d e : Edge} (harc : arc d = arc e) (hweight : d.weight = e.weight) :
    d = e := by
  obtain ⟨c, t, w⟩ := d
  obtain ⟨c', t', w'⟩ := e
  obtain ⟨rfl, rfl⟩ : c = c' ∧ t = t' := Prod.ext_iff.mp harc
  exact congrArg (Edge.mk c t) hweight

/-- What the edges on an arc weigh together. -/
def weightOn (a : Arc) : List Edge → Nat
  | [] => 0
  | e :: edges => (if arc e = a then e.weight else 0) + weightOn a edges

theorem joins_eq_true_iff {e : Edge} {a : Arc} : e.joins a.1 a.2 = true ↔ arc e = a := by
  simp [Edge.joins, arc, Prod.ext_iff]

/-- One more arc adds one to what its edge weighs. -/
theorem weightOn_insertEdge (a b : Arc) (edges : List Edge) :
    weightOn b (insertEdge a.1 a.2 edges) = weightOn b edges + if a = b then 1 else 0 := by
  induction edges with
  | nil =>
    change weightOn b [⟨a.1, a.2, 1⟩] = 0 + _
    rw [weightOn, Nat.add_comm]
    rfl
  | cons e edges ih =>
    rw [insertEdge]
    split
    · next hjoins =>
      have he : arc e = a := joins_eq_true_iff.mp hjoins
      have hmore : arc { e with weight := e.weight + 1 } = a := he
      rw [weightOn, weightOn, he, hmore]
      split
      · change e.weight + 1 + weightOn b edges = _
        omega
      · rfl
    · rw [weightOn, weightOn, ih]
      omega

/-- One more arc adds its edge at the end, or none. -/
theorem map_arc_insertEdge (a : Arc) (edges : List Edge) :
    (insertEdge a.1 a.2 edges).map arc =
      if a ∈ edges.map arc then edges.map arc else edges.map arc ++ [a] := by
  induction edges with
  | nil => simp [insertEdge, arc]
  | cons e edges ih =>
    rw [insertEdge]
    split
    · next hjoins =>
      have he : arc e = a := joins_eq_true_iff.mp hjoins
      have hmore : arc { e with weight := e.weight + 1 } = a := he
      simp [he, hmore]
    · next hjoins =>
      have he : ¬ a = arc e := fun h => hjoins (joins_eq_true_iff.mpr h.symm)
      simp only [List.map_cons, ih, List.mem_cons, he, false_or]
      split <;> rfl

/-- Edges count some arcs: no arc has two edges, and an edge weighs as
often as its arc occurs. -/
structure Counts (arcs : List Arc) (edges : List Edge) : Prop where
  /-- No arc has two edges. -/
  nodup : (edges.map arc).Nodup
  /-- The arcs that occur have edges, and no others. -/
  mem : ∀ a, a ∈ edges.map arc ↔ a ∈ arcs
  /-- They weigh as often as they occur. -/
  weight : ∀ a, weightOn a edges = arcs.count a

theorem Counts.insertEdge {arcs : List Arc} {edges : List Edge} (h : Counts arcs edges) (a : Arc) :
    Counts (arcs ++ [a]) (insertEdge a.1 a.2 edges) where
  nodup := by
    rw [map_arc_insertEdge]
    split
    · exact h.nodup
    · next ha => exact List.nodup_append.mpr ⟨h.nodup, List.nodup_singleton a, by
        rintro b hb c hc rfl
        exact ha (List.mem_singleton.mp hc ▸ hb)⟩
  mem b := by
    rw [map_arc_insertEdge]
    split
    · next ha =>
      rw [List.mem_append, h.mem, List.mem_singleton]
      constructor
      · exact Or.inl
      · rintro (hb | rfl)
        · exact hb
        · exact (h.mem b).mp ha
    · rw [List.mem_append, List.mem_append, h.mem]
  weight b := by
    rw [weightOn_insertEdge, h.weight, List.count_append, List.count_singleton]
    simp

theorem counts_ofArcs (arcs : List Arc) : Counts arcs (ofArcs arcs).edges := by
  have run : ∀ (rest seen : List Arc) (g : ReferenceGraph), Counts seen g.edges →
      Counts (seen ++ rest) (rest.foldl (fun g a => g.addEdge a.1 a.2) g).edges := by
    intro rest
    induction rest with
    | nil =>
      intro seen g hg
      simpa using hg
    | cons a rest ih =>
      intro seen g hg
      rw [List.foldl_cons, List.append_cons]
      exact ih _ _ (hg.insertEdge a)
  exact run arcs [] empty ⟨List.nodup_nil, by simp [empty], by simp [empty, weightOn]⟩

theorem weightOn_eq_zero {a : Arc} {edges : List Edge} (h : a ∉ edges.map arc) :
    weightOn a edges = 0 := by
  induction edges with
  | nil => rfl
  | cons e edges ih =>
    rw [List.map_cons, List.mem_cons, not_or] at h
    rw [weightOn, if_neg (Ne.symm h.1), ih h.2]

/-- Where no arc has two edges, an edge carries all the weight on its
arc. -/
theorem weightOn_arc {edges : List Edge} (hnodup : (edges.map arc).Nodup) {e : Edge}
    (he : e ∈ edges) : weightOn (arc e) edges = e.weight := by
  induction edges with
  | nil => cases he
  | cons d edges ih =>
    rw [List.map_cons, List.nodup_cons] at hnodup
    rw [weightOn]
    rcases List.mem_cons.mp he with rfl | hmem
    · rw [if_pos rfl, weightOn_eq_zero hnodup.1, Nat.add_zero]
    · have hne : arc d ≠ arc e := fun h => hnodup.1 (h ▸ List.mem_map_of_mem hmem)
      rw [if_neg hne, ih hnodup.2 hmem, Nat.zero_add]

/-- **An edge stands for the arcs it joins**, and weighs as many as there
are. -/
theorem mem_edges_ofArcs {arcs : List Arc} {e : Edge} :
    e ∈ (ofArcs arcs).edges ↔ arc e ∈ arcs ∧ e.weight = arcs.count (arc e) := by
  have hcounts := counts_ofArcs arcs
  constructor
  · intro he
    refine ⟨(hcounts.mem _).mp (List.mem_map_of_mem he), ?_⟩
    rw [← hcounts.weight, weightOn_arc hcounts.nodup he]
  · rintro ⟨harc, hweight⟩
    obtain ⟨d, hd, hde⟩ := List.mem_map.mp ((hcounts.mem _).mpr harc)
    have hdweight := weightOn_arc hcounts.nodup hd
    rw [hcounts.weight, hde, ← hweight] at hdweight
    exact eq_of_arc_of_weight hde hdweight.symm ▸ hd

theorem nodup_edges_ofArcs (arcs : List Arc) : (ofArcs arcs).edges.Nodup :=
  (counts_ofArcs arcs).nodup.of_map _

/-- **The edges and their weights do not depend on the order of the
arcs.** -/
theorem edges_ofArcs_perm {arcs arcs' : List Arc} (h : arcs.Perm arcs') :
    (ofArcs arcs).edges.Perm (ofArcs arcs').edges := by
  refine (List.perm_ext_iff_of_nodup (nodup_edges_ofArcs _) (nodup_edges_ofArcs _)).mpr fun e => ?_
  rw [mem_edges_ofArcs, mem_edges_ofArcs, h.mem_iff, h.count_eq]

end ReferenceGraph

end ConstGraph
