import ConstGraph.Cycle
import ConstGraph.Proofs.Reachability
import Mathlib.Data.List.Chain

/-!
# Which relations are circular

The policy that asks for a way back looks at the graph `Refers` of a
project: a relation is an edge from the definition it stands in to the
path it resolves to. `flagged_iff_on_closedWalk` says what it marks: the
relations whose edge lies on a closed walk with two different paths on it.
Put by ends, the target of such a relation leads back to its caller, and a
relation of a definition to itself is marked if the definition is mutually
reachable with another.
-/

namespace ConstGraph

/-! ## Walks -/

section Walks

variable {α : Type} {E : α → α → Prop} {a b c : α} {u v : List α}

/-- A walk along the edges, given by the places it visits. -/
structure IsWalk (E : α → α → Prop) (a b : α) (w : List α) : Prop where
  /-- Each place leads to the next. -/
  chain : w.IsChain E
  /-- Where the walk starts. -/
  head : w.head? = some a
  /-- Where the walk ends. -/
  last : w.getLast? = some b

namespace IsWalk

/-- A walk goes on from its end. -/
theorem append (hu : IsWalk E a b u) (hv : IsWalk E b c v) : IsWalk E a c (u ++ v.tail) := by
  obtain ⟨hchain, hhead, hlast⟩ := hv
  cases v with
  | nil => cases hhead
  | cons b' v =>
    obtain rfl : b' = b := by simpa using hhead
    refine ⟨?_, ?_, ?_⟩
    · rw [List.isChain_append]
      refine ⟨hu.chain, hchain.tail, ?_⟩
      intro x hx y hy
      obtain rfl : b' = x := by simpa [hu.last] using hx
      exact (List.isChain_cons.1 hchain).1 y hy
    · rw [List.head?_append, hu.head]
      rfl
    · rw [List.tail_cons, List.getLast?_append, hu.last]
      cases v with
      | nil => simpa using hlast
      | cons d v => simpa [List.getLast?_cons] using hlast

theorem last_mem (h : IsWalk E a b u) : b ∈ u := List.mem_of_getLast? h.last

/-- Every place of a walk is reached from its start. -/
theorem reaches (h : IsWalk E a b u) (hc : c ∈ u) : Relation.ReflTransGen E a c := by
  refine h.chain.induction (Relation.ReflTransGen E a) u ?_ ?_ c hc
  · intro x y hxy hx
    exact hx.tail hxy
  · intro hne
    obtain rfl : u.head hne = a := by simpa [List.head?_eq_some_head hne] using h.head
    exact .refl

/-- Every place of a walk reaches its end. -/
theorem reached (h : IsWalk E a b u) (hc : c ∈ u) : Relation.ReflTransGen E c b := by
  refine h.chain.backwards_induction (Relation.ReflTransGen E · b) u ?_ ?_ c hc
  · intro x y hxy hy
    exact hy.head hxy
  · intro hne
    obtain rfl : u.getLast hne = b := by simpa [List.getLast?_eq_some_getLast hne] using h.last
    exact .refl

end IsWalk

/-- What is reached is reached by a walk. -/
theorem exists_isWalk (h : Relation.ReflTransGen E a b) : ∃ w, IsWalk E a b w := by
  induction h with
  | refl => exact ⟨[a], ⟨.singleton a, rfl, rfl⟩⟩
  | @tail b c _ hbc ih =>
    obtain ⟨w, hw⟩ := ih
    exact ⟨_, hw.append (c := c) (v := [b, c]) ⟨by simpa using hbc, rfl, rfl⟩⟩

/-- The edge lies on a closed walk, and the walk visits two different
places. -/
def OnClosedWalk (E : α → α → Prop) (c t : α) : Prop :=
  ∃ w, (∃ a, IsWalk E a a w) ∧ [c, t] <:+: w ∧ ∃ p ∈ w, ∃ q ∈ w, p ≠ q

/-- **An edge lies on such a walk** exactly if its end leads back to its
start, and its start to another place and back. -/
theorem onClosedWalk_iff (hedge : E a b) :
    OnClosedWalk E a b ↔
      Relation.TransGen E b a ∧
        ∃ d, d ≠ a ∧ Relation.TransGen E a d ∧ Relation.TransGen E d a := by
  have proper : ∀ {x y}, Relation.ReflTransGen E x y → y ≠ x → Relation.TransGen E x y :=
    fun h hne => (Relation.reflTransGen_iff_eq_or_transGen.1 h).resolve_left hne
  constructor
  · rintro ⟨w, ⟨s, hw⟩, hon, p, hp, q, hq, hne⟩
    have ha : a ∈ w := hon.subset (by simp)
    have hb : b ∈ w := hon.subset (by simp)
    -- on a closed walk every place reaches every other
    have hmutual : ∀ x ∈ w, ∀ y ∈ w, Relation.ReflTransGen E x y :=
      fun x hx y hy => (hw.reached hx).trans (hw.reaches hy)
    constructor
    · by_cases hab : a = b
      · subst hab
        exact .single hedge
      · exact proper (hmutual b hb a ha) hab
    · obtain ⟨d, hd, hda⟩ : ∃ d ∈ w, d ≠ a := by
        by_cases hpa : p = a
        · exact ⟨q, hq, fun hqa => hne (hpa.trans hqa.symm)⟩
        · exact ⟨p, hp, hpa⟩
      exact ⟨d, hda, proper (hmutual a ha d hd) hda, proper (hmutual d hd a ha) hda.symm⟩
  · rintro ⟨hback, d, hd, had, hda⟩
    obtain ⟨u, hu⟩ := exists_isWalk hback.to_reflTransGen
    obtain ⟨v, hv⟩ := exists_isWalk had.to_reflTransGen
    obtain ⟨x, hx⟩ := exists_isWalk hda.to_reflTransGen
    have hfirst : IsWalk E a b [a, b] := ⟨by simpa using hedge, rfl, rfl⟩
    -- along the edge, back to its start, and from there to `d` and back
    refine ⟨_, ⟨a, ((hfirst.append hu).append hv).append hx⟩, ?_, a, ?_, d, ?_, hd.symm⟩
    · exact ⟨[], u.tail ++ v.tail ++ x.tail, by simp⟩
    · simp
    · have hdv : d ∈ v.tail := by
        have hmem := hv.last_mem
        have hhead := hv.head
        cases v with
        | nil => cases hhead
        | cons y v =>
          obtain rfl : y = a := by simpa using hhead
          exact (List.mem_cons.1 hmem).resolve_left hd
      simp [hdv]

end Walks

/-! ## The flags -/

/-- The reference graph of a project: an edge for every relation that
stands in a definition and resolves to something. -/
def Refers (relations : List Relation) (store : DefinitionStore) (c t : ConstPath) : Prop :=
  ∃ r ∈ relations, r.caller = c ∧ r.resolve store = t ∧ c ≠ [] ∧ t ≠ []

theorem Relation.arc?_eq_some {store : DefinitionStore} {r : Relation} {c t : ConstPath} :
    r.arc? store = some (c, t) ↔ r.caller = c ∧ r.resolve store = t ∧ c ≠ [] ∧ t ≠ [] := by
  simp only [arc?]
  split
  · next hempty =>
    simp only [Bool.or_eq_true, List.isEmpty_iff] at hempty
    constructor
    · rintro ⟨⟩
    · rintro ⟨rfl, rfl, hc, ht⟩
      exact (hempty.elim hc ht).elim
  · next hempty =>
    simp only [Bool.or_eq_true, List.isEmpty_iff, not_or] at hempty
    constructor
    · rintro ⟨⟩
      exact ⟨rfl, rfl, hempty⟩
    · rintro ⟨rfl, rfl, -⟩
      rfl

theorem joins_ofRelations {relations : List Relation} {store : DefinitionStore} :
    (ReferenceGraph.ofRelations relations store).Joins = Refers relations store := by
  funext c t
  rw [ReferenceGraph.ofRelations, ReferenceGraph.joins_ofArcs, List.mem_filterMap]
  simp only [Relation.arc?_eq_some]
  rfl

namespace CircularFlags

variable {classes : List (List ConstPath)} {store : DefinitionStore} {f : CircularFlags}
  {r s : Relation}

theorem mem_insert {α : Type} [BEq α] [LawfulBEq α] {x y : α} {xs : List α} :
    y ∈ insert x xs ↔ y ∈ xs ∨ y = x := by
  unfold insert
  split
  · next h =>
    have hx : x ∈ xs := by simpa using h
    constructor
    · exact Or.inl
    · rintro (hy | rfl)
      · exact hy
      · exact hx
  · simp

/-- Marking definitions leaves the relations alone. -/
theorem relations_foldl_markDefinition (ds : List Definition) (f : CircularFlags) :
    (ds.foldl markDefinition f).relations = f.relations := by
  induction ds generalizing f with
  | nil => rfl
  | cons d ds ih =>
    rw [List.foldl_cons, ih]
    rfl

/-- Both ends of the relation lie in a common class. -/
def Within (classes : List (List ConstPath)) (store : DefinitionStore) (r : Relation) : Prop :=
  r.caller ≠ [] ∧ r.resolve store ≠ [] ∧
    ∃ c ∈ classes, r.caller ∈ c ∧ r.resolve store ∈ c

/-- One relation judged: it is marked if its ends lie in a common class,
and nothing else changes among the relations. -/
theorem judge_scc (classes : List (List ConstPath)) (store : DefinitionStore) (f : CircularFlags)
    (r : Relation) :
    ∃ f', judge (.scc classes) store f r = .ok f' ∧
      ∀ s, s ∈ f'.relations ↔ s ∈ f.relations ∨ s = r ∧ Within classes store r := by
  unfold judge
  cases harc : r.arc? store with
  | none =>
    refine ⟨f, rfl, fun s => ⟨Or.inl, ?_⟩⟩
    rintro (hs | ⟨-, hc, ht, -⟩)
    · exact hs
    · rw [Relation.arc?_eq_some.2 ⟨rfl, rfl, hc, ht⟩] at harc
      cases harc
  | some arc =>
    obtain ⟨c, t⟩ := arc
    obtain ⟨rfl, rfl, hc, ht⟩ := Relation.arc?_eq_some.1 harc
    simp only [CyclePolicy.isCircular, Except.map]
    refine ⟨_, rfl, fun s => ?_⟩
    split
    · next hany =>
      have hwithin : Within classes store r := ⟨hc, ht, by simpa using hany⟩
      rw [relations_foldl_markDefinition, markRelation, mem_insert]
      exact or_congr_right ⟨fun hs => ⟨hs, hwithin⟩, And.left⟩
    · next hany =>
      have hnot : ¬ Within classes store r := fun h => hany (by simpa using h.2.2)
      exact ⟨Or.inl, fun h => h.resolve_right fun hs => hnot hs.2⟩

/-- A run of judgements marks the relations whose ends lie in a common
class. -/
theorem judgeAll_scc (classes : List (List ConstPath)) (store : DefinitionStore)
    (f : CircularFlags) (rs : List Relation) :
    ∃ f', judgeAll (.scc classes) store f rs = .ok f' ∧
      ∀ s, s ∈ f'.relations ↔ s ∈ f.relations ∨ s ∈ rs ∧ Within classes store s := by
  induction rs generalizing f with
  | nil => exact ⟨f, rfl, by simp⟩
  | cons r rs ih =>
    obtain ⟨f₁, hjudge, hmem₁⟩ := judge_scc classes store f r
    obtain ⟨f₂, hall, hmem₂⟩ := ih f₁
    refine ⟨f₂, ?_, fun s => ?_⟩
    · rw [judgeAll, hjudge]
      exact hall
    · rw [hmem₂, hmem₁, List.mem_cons]
      constructor
      · rintro ((hs | ⟨rfl, hw⟩) | ⟨hs, hw⟩)
        · exact Or.inl hs
        · exact Or.inr ⟨Or.inl rfl, hw⟩
        · exact Or.inr ⟨Or.inr hs, hw⟩
      · rintro (hs | ⟨rfl | hs, hw⟩)
        · exact Or.inl (Or.inl hs)
        · exact Or.inl (Or.inr ⟨rfl, hw⟩)
        · exact Or.inr ⟨hs, hw⟩

/-- The ends of a listed relation lie in a common class of the graph
exactly if its edge lies on a closed walk. -/
theorem within_components_iff {relations : List Relation} (hr : r ∈ relations)
    (hc : r.caller ≠ []) (ht : r.resolve store ≠ []) :
    Within (ReferenceGraph.ofRelations relations store).components store r ↔
      OnClosedWalk (Refers relations store) r.caller (r.resolve store) := by
  have hedge : Refers relations store r.caller (r.resolve store) := ⟨r, hr, rfl, rfl, hc, ht⟩
  have hlaid : (ReferenceGraph.ofRelations relations store).IsLaid := ReferenceGraph.ofArcs_laid _
  rw [Within, ReferenceGraph.exists_mem_components_iff hlaid, onClosedWalk_iff hedge]
  simp only [ReferenceGraph.Mutual, joins_ofRelations]
  constructor
  · rintro ⟨-, -, ⟨-, hback⟩, hother⟩
    exact ⟨hback, hother⟩
  · rintro ⟨hback, hother⟩
    exact ⟨hc, ht, ⟨.single hedge, hback⟩, hother⟩

/-- **The circular relations are those on a closed walk** with two
different paths on it, whatever graph the policy saw before. A relation
between different paths is one of them exactly if its target leads back to
its caller; one of a path to itself, exactly if the path is mutually
reachable with another. -/
theorem flagged_iff_on_closedWalk (seen : List (List ConstPath)) (relations : List Relation)
    (store : DefinitionStore) :
    ∃ flags, ofRelations (.scc seen) relations store = .ok flags ∧
      (∀ r, flags.hasRelation r ↔
        r ∈ relations ∧ r.caller ≠ [] ∧ r.resolve store ≠ [] ∧
          OnClosedWalk (Refers relations store) r.caller (r.resolve store)) ∧
      ∀ r, flags.hasRelation r ↔
        r ∈ relations ∧ r.caller ≠ [] ∧ r.resolve store ≠ [] ∧
          (r.caller ≠ r.resolve store ∧
              Relation.TransGen (Refers relations store) (r.resolve store) r.caller ∨
            r.caller = r.resolve store ∧
              ∃ p, p ≠ r.caller ∧ Relation.TransGen (Refers relations store) r.caller p ∧
                Relation.TransGen (Refers relations store) p r.caller) := by
  obtain ⟨flags, hflags, hmem⟩ :=
    judgeAll_scc (ReferenceGraph.ofRelations relations store).components store empty relations
  have hwalk : ∀ r, flags.hasRelation r ↔
      r ∈ relations ∧ r.caller ≠ [] ∧ r.resolve store ≠ [] ∧
        OnClosedWalk (Refers relations store) r.caller (r.resolve store) := by
    intro r
    rw [hasRelation, List.contains_iff_mem, hmem]
    constructor
    · rintro (hr | ⟨hr, hw⟩)
      · cases hr
      · exact ⟨hr, hw.1, hw.2.1, (within_components_iff hr hw.1 hw.2.1).1 hw⟩
    · rintro ⟨hr, hc, ht, hw⟩
      exact Or.inr ⟨hr, (within_components_iff hr hc ht).2 hw⟩
  refine ⟨flags, hflags, hwalk, fun r => (hwalk r).trans ?_⟩
  refine and_congr_right fun hr => and_congr_right fun hc => and_congr_right fun ht => ?_
  have hedge : Refers relations store r.caller (r.resolve store) := ⟨r, hr, rfl, rfl, hc, ht⟩
  rw [onClosedWalk_iff hedge]
  by_cases hself : r.caller = r.resolve store
  · rw [← hself] at hedge ⊢
    simp [Relation.TransGen.single hedge]
  · constructor
    · exact fun h => Or.inl ⟨hself, h.1⟩
    · rintro (⟨-, hback⟩ | ⟨heq, -⟩)
      · exact ⟨hback, r.resolve store, Ne.symm hself, .single hedge, hback⟩
      · exact absurd heq hself

end CircularFlags

end ConstGraph
