import ConstGraph.ReferenceGraph
import Mathlib.Data.List.Nodup
import Mathlib.Logic.Relation

/-!
# What the exploration of a reference graph reaches

`Joins` is the edge relation of a graph. `mem_explore` says what a search
in layers finds: the nodes of the unseen part that a walk through the
unseen part leads to. Started with every node unseen, it is reachability
by one edge or more (`mem_reachable`), and from there `components` holds
the classes of mutually reachable nodes (`exists_mem_components_iff`).

A graph made from arcs has exactly these arcs for edges, and every end of
an edge is a node (`ofArcs_laid`).
-/

namespace ConstGraph

namespace ReferenceGraph

variable {g : ReferenceGraph} {layer unseen : List ConstPath} {p q : ConstPath}

/-! ## Edges -/

/-- Some edge leads from the one path to the other. -/
def Joins (g : ReferenceGraph) (p q : ConstPath) : Prop :=
  ∃ e ∈ g.edges, e.caller = p ∧ e.target = q

/-- The graph is laid out properly: nodes occur once, and an edge ends in
a node on either side. -/
structure IsLaid (g : ReferenceGraph) : Prop where
  /-- No node occurs twice. -/
  nodup : g.nodes.Nodup
  /-- An edge starts in a node. -/
  caller_mem : ∀ {p q}, g.Joins p q → p ∈ g.nodes
  /-- An edge ends in a node. -/
  target_mem : ∀ {p q}, g.Joins p q → q ∈ g.nodes

theorem mem_insertNode {nodes : List ConstPath} : q ∈ insertNode p nodes ↔ q ∈ nodes ∨ q = p := by
  unfold insertNode
  split
  · next h =>
    have hp : p ∈ nodes := by simpa using h
    constructor
    · exact Or.inl
    · rintro (hq | rfl)
      · exact hq
      · exact hp
  · simp

theorem nodup_insertNode {nodes : List ConstPath} (h : nodes.Nodup) :
    (insertNode p nodes).Nodup := by
  unfold insertNode
  split
  · exact h
  · next hp =>
    have hp : p ∉ nodes := by simpa using hp
    rw [List.nodup_append]
    refine ⟨h, List.nodup_singleton p, ?_⟩
    rintro a ha b hb rfl
    exact hp (List.mem_singleton.1 hb ▸ ha)

/-- An edge added is an edge, whether or not it only gained weight. -/
theorem exists_mem_insertEdge {caller target : ConstPath} {edges : List Edge} :
    (∃ e ∈ insertEdge caller target edges, e.caller = p ∧ e.target = q) ↔
      (∃ e ∈ edges, e.caller = p ∧ e.target = q) ∨ (p = caller ∧ q = target) := by
  induction edges with
  | nil => simp [insertEdge, eq_comm]
  | cons e es ih =>
    rw [insertEdge]
    split
    · next hjoins =>
      have hends : e.caller = caller ∧ e.target = target := by
        simpa [Edge.joins] using hjoins
      simp only [List.mem_cons, exists_eq_or_imp]
      constructor
      · rintro (hp | hp)
        · exact Or.inl (Or.inl hp)
        · exact Or.inl (Or.inr hp)
      · rintro ((hp | hp) | ⟨rfl, rfl⟩)
        · exact Or.inl hp
        · exact Or.inr hp
        · exact Or.inl hends
    · simp only [List.mem_cons, exists_eq_or_imp]
      rw [ih, or_assoc]

theorem joins_addEdge {caller target : ConstPath} :
    (g.addEdge caller target).Joins p q ↔ g.Joins p q ∨ (p = caller ∧ q = target) :=
  exists_mem_insertEdge

theorem mem_nodes_addEdge {caller target : ConstPath} :
    p ∈ (g.addEdge caller target).nodes ↔ (p ∈ g.nodes ∨ p = caller) ∨ p = target := by
  rw [addEdge, mem_insertNode, mem_insertNode]

/-- An edge more leaves the graph laid out properly. -/
theorem IsLaid.addEdge (h : g.IsLaid) (caller target : ConstPath) :
    (g.addEdge caller target).IsLaid where
  nodup := nodup_insertNode (nodup_insertNode h.nodup)
  caller_mem hj := by
    rcases joins_addEdge.1 hj with hj | ⟨rfl, rfl⟩
    · exact mem_nodes_addEdge.2 (Or.inl (Or.inl (h.caller_mem hj)))
    · exact mem_nodes_addEdge.2 (Or.inl (Or.inr rfl))
  target_mem hj := by
    rcases joins_addEdge.1 hj with hj | ⟨rfl, rfl⟩
    · exact mem_nodes_addEdge.2 (Or.inl (Or.inl (h.target_mem hj)))
    · exact mem_nodes_addEdge.2 (Or.inr rfl)

theorem empty_laid : (empty : ReferenceGraph).IsLaid where
  nodup := List.nodup_nil
  caller_mem hj := by simp [Joins, empty] at hj
  target_mem hj := by simp [Joins, empty] at hj

theorem ofArcs_laid (arcs : List (ConstPath × ConstPath)) : (ofArcs arcs).IsLaid := by
  have run : ∀ g : ReferenceGraph, g.IsLaid →
      (arcs.foldl (fun g a => g.addEdge a.1 a.2) g).IsLaid := by
    induction arcs with
    | nil => exact fun g h => h
    | cons a arcs ih => exact fun g h => ih _ (h.addEdge a.1 a.2)
  exact run empty empty_laid

/-- **The edges are the arcs the graph was made from.** -/
theorem joins_ofArcs {arcs : List (ConstPath × ConstPath)} :
    (ofArcs arcs).Joins p q ↔ (p, q) ∈ arcs := by
  have run : ∀ g : ReferenceGraph,
      (arcs.foldl (fun g a => g.addEdge a.1 a.2) g).Joins p q ↔ g.Joins p q ∨ (p, q) ∈ arcs := by
    induction arcs with
    | nil => simp
    | cons a arcs ih =>
      intro g
      rw [List.foldl_cons, ih, joins_addEdge, List.mem_cons, Prod.ext_iff, or_assoc]
  have hempty : ¬ (empty : ReferenceGraph).Joins p q := by simp [Joins, empty]
  exact (run empty).trans (or_iff_right hempty)

/-! ## The search in layers -/

theorem mem_successors {ps : List ConstPath} : q ∈ g.successors ps ↔ ∃ p ∈ ps, g.Joins p q := by
  simp only [successors, List.mem_map, List.mem_filter, List.contains_iff_mem, Joins]
  constructor
  · rintro ⟨e, ⟨he, hp⟩, rfl⟩
    exact ⟨e.caller, hp, e, he, rfl, rfl⟩
  · rintro ⟨p, hp, e, he, rfl, rfl⟩
    exact ⟨e, ⟨he, hp⟩, rfl⟩

theorem mem_nextLayer :
    q ∈ g.nextLayer layer unseen ↔ q ∈ unseen ∧ ∃ p ∈ layer, g.Joins p q := by
  rw [nextLayer, List.mem_filter, List.contains_iff_mem, mem_successors]

theorem mem_stillUnseen :
    q ∈ g.stillUnseen layer unseen ↔ q ∈ unseen ∧ ¬ ∃ p ∈ layer, g.Joins p q := by
  rw [stillUnseen, List.mem_filter, ← mem_successors]
  simp

/-- A walk of one edge or more from the layer leads there, and stays within
the unseen part once it has left the layer. -/
inductive ReachedIn (g : ReferenceGraph) (layer unseen : List ConstPath) : ConstPath → Prop
  /-- The first edge leads out of the layer. -/
  | first {p q : ConstPath} : p ∈ layer → g.Joins p q → q ∈ unseen → ReachedIn g layer unseen q
  /-- Any further edge starts where the walk has come to. -/
  | further {p q : ConstPath} : ReachedIn g layer unseen p → g.Joins p q → q ∈ unseen →
      ReachedIn g layer unseen q

namespace ReachedIn

/-- Nothing is reached from a layer that leads nowhere. -/
theorem nextLayer_ne_nil (h : g.ReachedIn layer unseen q) : g.nextLayer layer unseen ≠ [] := by
  induction h with
  | first hp hj hq => exact List.ne_nil_of_mem (mem_nextLayer.2 ⟨hq, _, hp, hj⟩)
  | further _ _ _ ih => exact ih

/-- What the next layer reaches, this one does. -/
theorem of_nextLayer
    (h : g.ReachedIn (g.nextLayer layer unseen) (g.stillUnseen layer unseen) q) :
    g.ReachedIn layer unseen q := by
  induction h with
  | first hp hj hq =>
    obtain ⟨hu, p, hlayer, hjp⟩ := mem_nextLayer.1 hp
    exact .further (.first hlayer hjp hu) hj (mem_stillUnseen.1 hq).1
  | further _ hj hq ih => exact .further ih hj (mem_stillUnseen.1 hq).1

/-- **What is reached lies in the next layer or is reached from it**, by
a walk that avoids that layer: the walk is cut where it last meets it. -/
theorem nextLayer_or (h : g.ReachedIn layer unseen q) :
    q ∈ g.nextLayer layer unseen ∨
      g.ReachedIn (g.nextLayer layer unseen) (g.stillUnseen layer unseen) q := by
  induction h with
  | first hp hj hq => exact Or.inl (mem_nextLayer.2 ⟨hq, _, hp, hj⟩)
  | @further p q _ hj hq ih =>
    -- the walk may come back to the next layer, and then starts over there
    by_cases hnext : ∃ a ∈ layer, g.Joins a q
    · exact Or.inl (mem_nextLayer.2 ⟨hq, hnext⟩)
    · have hstill : q ∈ g.stillUnseen layer unseen := mem_stillUnseen.2 ⟨hq, hnext⟩
      rcases ih with hp | hp
      · exact Or.inr (.first hp hj hstill)
      · exact Or.inr (.further hp hj hstill)

end ReachedIn

/-- **The search finds what is reached.** -/
theorem mem_explore : q ∈ g.explore layer unseen ↔ g.ReachedIn layer unseen q := by
  fun_induction explore g layer unseen with
  | case1 layer unseen next hnil =>
    constructor
    · intro h
      exact absurd h List.not_mem_nil
    · intro h
      exact absurd hnil h.nextLayer_ne_nil
  | case2 layer unseen next hnext hlt ih =>
    rw [List.mem_append, ih]
    constructor
    · rintro (h | h)
      · obtain ⟨hu, p, hp, hj⟩ := mem_nextLayer.1 h
        exact .first hp hj hu
      · exact h.of_nextLayer
    · exact ReachedIn.nextLayer_or

/-- **Reachability by one edge or more**, in a graph laid out properly. -/
theorem mem_reachable (h : g.IsLaid) : q ∈ g.reachable p ↔ Relation.TransGen g.Joins p q := by
  rw [reachable, mem_explore]
  constructor
  · intro hreach
    induction hreach with
    | first hp hj _ =>
      obtain rfl := List.mem_singleton.1 hp
      exact .single hj
    | further _ hj _ ih => exact .tail ih hj
  · intro hreach
    induction hreach with
    | single hj => exact .first (List.mem_singleton.2 rfl) hj (h.target_mem hj)
    | tail _ hj ih => exact .further ih hj (h.target_mem hj)

/-! ## Classes of mutually reachable nodes -/

/-- Each reaches the other. -/
def Mutual (g : ReferenceGraph) (p q : ConstPath) : Prop :=
  Relation.TransGen g.Joins p q ∧ Relation.TransGen g.Joins q p

theorem Mutual.symm (h : g.Mutual p q) : g.Mutual q p := ⟨h.2, h.1⟩

theorem Mutual.trans {r : ConstPath} (h : g.Mutual p q) (h' : g.Mutual q r) : g.Mutual p r :=
  ⟨h.1.trans h'.1, h'.2.trans h.2⟩

theorem Mutual.mem_nodes (h : g.IsLaid) (hm : g.Mutual p q) : q ∈ g.nodes := by
  obtain ⟨r, -, hj⟩ := Relation.TransGen.tail'_iff.1 hm.1
  exact h.target_mem hj

/-- The class of a node: the nodes that reach it and are reached from it. -/
theorem component_reachTable (g : ReferenceGraph) (p : ConstPath) :
    component g.reachTable p (g.reachable p) =
      g.nodes.filter fun q => (g.reachable p).contains q && (g.reachable q).contains p := by
  simp only [component, reachTable, List.filter_map, List.map_map]
  exact List.map_id _

theorem mem_component (h : g.IsLaid) :
    q ∈ component g.reachTable p (g.reachable p) ↔ g.Mutual p q := by
  rw [component_reachTable]
  simp only [List.mem_filter, Bool.and_eq_true, List.contains_iff_mem, mem_reachable h]
  exact ⟨fun hq => hq.2, fun hm => ⟨hm.mem_nodes h, hm⟩⟩

theorem nodup_component (h : g.IsLaid) :
    (component g.reachTable p (g.reachable p)).Nodup := by
  rw [component_reachTable]
  exact h.nodup.filter _

/-- Two different members make a class of more than one. -/
theorem one_lt_length_iff {xs : List ConstPath} (h : xs.Nodup) :
    1 < xs.length ↔ ∃ a ∈ xs, ∃ b ∈ xs, a ≠ b := by
  constructor
  · intro hlen
    refine ⟨xs[0], List.getElem_mem _, xs[1], List.getElem_mem _, ?_⟩
    intro heq
    have := h.getElem_inj_iff.1 heq
    omega
  · rintro ⟨a, ha, b, hb, hne⟩
    by_contra hlen
    obtain hnil | ⟨x, rfl⟩ : xs = [] ∨ ∃ x, xs = [x] := by
      match xs, hlen with
      | [], _ => exact Or.inl rfl
      | [x], _ => exact Or.inr ⟨x, rfl⟩
      | _ :: _ :: _, hlen => simp at hlen
    · simp [hnil] at ha
    · exact hne ((List.mem_singleton.1 ha).trans (List.mem_singleton.1 hb).symm)

theorem mem_components {c : List ConstPath} :
    c ∈ g.components ↔
      (∃ a ∈ g.nodes, component g.reachTable a (g.reachable a) = c) ∧ 1 < c.length := by
  simp only [components, reachTable, List.map_map, List.mem_filter, List.mem_map,
    Function.comp_apply, decide_eq_true_eq]

/-- **Two nodes lie in a common class** exactly if each reaches the other
and the class has a second member. -/
theorem exists_mem_components_iff (h : g.IsLaid) :
    (∃ c ∈ g.components, p ∈ c ∧ q ∈ c) ↔ g.Mutual p q ∧ ∃ r, r ≠ p ∧ g.Mutual p r := by
  constructor
  · rintro ⟨c, hc, hp, hq⟩
    obtain ⟨⟨a, -, rfl⟩, hlen⟩ := mem_components.1 hc
    obtain ⟨x, hx, y, hy, hne⟩ := (one_lt_length_iff (nodup_component h)).1 hlen
    rw [mem_component h] at hp hq hx hy
    refine ⟨hp.symm.trans hq, ?_⟩
    -- of two different members, one is not the node itself
    by_cases hxp : x = p
    · exact ⟨y, fun hyp => hne (hxp.trans hyp.symm), hp.symm.trans hy⟩
    · exact ⟨x, hxp, hp.symm.trans hx⟩
  · rintro ⟨hq, r, hr, hmr⟩
    have hself : g.Mutual p p := hq.trans hq.symm
    refine ⟨_, mem_components.2 ⟨⟨p, hself.mem_nodes h, rfl⟩, ?_⟩, ?_, ?_⟩
    · refine (one_lt_length_iff (nodup_component h)).2 ⟨r, ?_, p, ?_, hr⟩
      · exact (mem_component h).2 hmr
      · exact (mem_component h).2 hself
    · exact (mem_component h).2 hself
    · exact (mem_component h).2 hq

end ReferenceGraph

end ConstGraph
