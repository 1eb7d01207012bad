import ConstGraph.Proofs.EdgeWeights
import ConstGraph.Proofs.Policies
import Mathlib.Data.List.Sort

/-!
# The order of the files

The files of a project may be read in any order. Definitions that neither
path nor kind tells apart then change places in the store, and everything
that is built up one relation after the other is built up in another
order; but nothing that is looked at afterwards shows it. `AgreesWith` says
what two graphs have in common then, and `assemble_perm` that they do.

A relation resolves by which paths are defined (`resolve_ofList_perm`), an
edge weighs as many relations as there are (`edges_ofArcs_perm`), and a
policy looks at the edges only (`ofRelations_laidDown`).
-/

namespace ConstGraph

/-! ## The store -/

theorem DefinitionKind.label_injective {k k' : DefinitionKind} (h : k.label = k'.label) :
    k = k' := by
  have hkinds := congrArg ofLabel? h
  rw [ofLabel?_label, ofLabel?_label] at hkinds
  exact Option.some.inj hkinds

namespace Definition

/-- What definitions are sorted by. -/
def key (d : Definition) : ConstPath × DefinitionKind := (d.path, d.kind)

/-- Which of two definitions stands first shows in their keys. -/
theorem precedes_congr {a a' b b' : Definition} (ha : a.key = a'.key) (hb : b.key = b'.key) :
    a.precedes b = a'.precedes b' := by
  simp only [key, Prod.mk.injEq] at ha hb
  simp only [precedes, order, ha.1, ha.2, hb.1, hb.2]

/-- Definitions that may stand before each other have the same key. -/
theorem key_eq_of_precedes {a b : Definition} (hab : a.precedes b) (hba : b.precedes a) :
    a.key = b.key := by
  have hswap : compare b.path a.path = (compare a.path b.path).swap := Std.OrientedCmp.eq_swap
  have hlabel : compare b.kind.label a.kind.label = (compare a.kind.label b.kind.label).swap :=
    Std.OrientedCmp.eq_swap
  rw [precedes_iff] at hab hba
  rw [hswap, hlabel] at hba
  cases hpath : compare a.path b.path with
  | lt => simp [hpath] at hba
  | gt => simp [hpath] at hab
  | eq =>
    have hkind : compare a.kind.label b.kind.label = .eq := by
      cases hcmp : compare a.kind.label b.kind.label <;> simp_all
    have hpaths : a.path = b.path := eq_of_beq (Std.compare_eq_iff_beq.1 hpath)
    have hlabels : a.kind.label = b.kind.label := Std.LawfulEqCmp.eq_of_compare hkind
    exact Prod.ext hpaths (DefinitionKind.label_injective hlabels)

end Definition

namespace DefinitionStore

theorem toList_ofList_perm {σ ν : Type} [Segment σ] (ds : List (Definition σ ν)) :
    (ofList ds).toList.Perm ds := by
  simpa [toList, ofList] using List.mergeSort_perm ds Definition.precedes

theorem toList_perm {ds ds' : List Definition} (h : ds.Perm ds') :
    (ofList ds).toList.Perm (ofList ds').toList :=
  ((toList_ofList_perm ds).trans h).trans (toList_ofList_perm ds').symm

/-- **The keys of a store come in one order**, whatever order its
definitions came in. -/
theorem map_key_perm {ds ds' : List Definition} (h : ds.Perm ds') :
    (ofList ds).toList.map Definition.key = (ofList ds').toList.map Definition.key := by
  -- two definitions with these keys may stand in this order
  let before (k k' : ConstPath × DefinitionKind) : Prop :=
    ∃ a b : Definition, a.key = k ∧ b.key = k' ∧ a.precedes b
  have hsorted : ∀ s : DefinitionStore, (s.toList.map Definition.key).Pairwise before := by
    intro s
    rw [List.pairwise_map]
    exact s.sorted.imp fun hab => ⟨_, _, rfl, rfl, hab⟩
  refine List.Perm.eq_of_pairwise ?_ (hsorted _) (hsorted _) ((toList_perm h).map _)
  rintro k k' - - ⟨a, b, rfl, rfl, hab⟩ ⟨b', a', hb, ha, hba⟩
  refine Definition.key_eq_of_precedes hab ?_
  rwa [Definition.precedes_congr hb ha] at hba

/-- **A relation resolves by which paths are defined**, not by where. -/
theorem resolve_ofList_perm {ds ds' : List Definition} (h : ds.Perm ds') (r : Relation) :
    r.resolve (ofList ds) = r.resolve (ofList ds') := by
  have hcontains : (ofList ds).contains = (ofList ds').contains := by
    funext p
    rw [Bool.eq_iff_iff, contains_ofList, contains_ofList]
    simp only [h.mem_iff]
  rw [Relation.resolve, Relation.resolve, hcontains]

end DefinitionStore

/-! ## The flags -/

namespace CircularFlags

/-- Nothing is marked twice. -/
structure Once (f : CircularFlags) : Prop where
  /-- No definition is. -/
  definitions : f.definitions.Nodup
  /-- No relation is. -/
  relations : f.relations.Nodup

theorem nodup_insert {α : Type} [BEq α] [LawfulBEq α] {x : α} {xs : List α} (h : xs.Nodup) :
    (insert x xs).Nodup := by
  unfold insert
  split
  · exact h
  · next hx =>
    rw [List.contains_iff_mem] at hx
    refine List.nodup_append.mpr ⟨h, List.nodup_singleton x, ?_⟩
    rintro y hy z hz rfl
    exact hx (List.mem_singleton.mp hz ▸ hy)

theorem Once.markDefinitions {f : CircularFlags} (h : f.Once) (ds : List Definition) :
    (ds.foldl markDefinition f).Once := by
  induction ds generalizing f with
  | nil => exact h
  | cons d ds ih => exact ih ⟨nodup_insert h.definitions, h.relations⟩

variable {policy : CyclePolicy} {store : DefinitionStore} {f f' : CircularFlags}

theorem Once.judge {r : Relation} (h : f.Once) (hjudge : judge policy store f r = .ok f') :
    f'.Once := by
  rcases judge_cases hjudge with ⟨-, rfl⟩ | ⟨-, rfl⟩
  · have hmarked : (f.markRelation r).Once := ⟨h.definitions, nodup_insert h.relations⟩
    exact hmarked.markDefinitions _
  · exact h

theorem Once.judgeAll {rs : List Relation} (h : f.Once)
    (hall : judgeAll policy store f rs = .ok f') : f'.Once := by
  induction rs generalizing f with
  | nil =>
    cases hall
    exact h
  | cons r rs ih =>
    rw [CircularFlags.judgeAll] at hall
    split at hall
    · next hjudge => exact ih (h.judge hjudge) hall
    · cases hall

theorem once_ofRelations {rs : List Relation} (h : ofRelations policy rs store = .ok f) : f.Once :=
  Once.judgeAll ⟨List.nodup_nil, List.nodup_nil⟩ h

end CircularFlags

/-! ## References and flags -/

section

variable {ds ds' : List Definition} {rs rs' : List Relation}

theorem refers_perm (hds : ds.Perm ds') (hrs : rs.Perm rs') :
    Refers rs (.ofList ds) = Refers rs' (.ofList ds') := by
  funext c t
  simp only [Refers, hrs.mem_iff, DefinitionStore.resolve_ofList_perm hds]

theorem ReferenceGraph.edges_perm (hds : ds.Perm ds') (hrs : rs.Perm rs') :
    (ReferenceGraph.ofRelations rs (.ofList ds)).edges.Perm
      (ReferenceGraph.ofRelations rs' (.ofList ds')).edges := by
  have harc : Relation.arc? (.ofList ds) = Relation.arc? (.ofList ds') := by
    funext r
    simp only [Relation.arc?, DefinitionStore.resolve_ofList_perm hds]
  refine edges_ofArcs_perm ?_
  rw [harc]
  exact hrs.filterMap _

/-- The same relations and definitions are marked, whatever order they
come in. -/
theorem CircularFlags.flags_perm {policy : CyclePolicy} (hpolicy : policy.LaidDown)
    (hds : ds.Perm ds') (hrs : rs.Perm rs') :
    ∃ f f', ofRelations policy rs (.ofList ds) = .ok f ∧
      ofRelations policy rs' (.ofList ds') = .ok f' ∧
      f.relations.Perm f'.relations ∧ f.definitions.Perm f'.definitions := by
  have hresolve := DefinitionStore.resolve_ofList_perm hds
  obtain ⟨f, hf, hmarked⟩ := ofRelations_laidDown hpolicy rs (.ofList ds)
  obtain ⟨f', hf', hmarked'⟩ := ofRelations_laidDown hpolicy rs' (.ofList ds')
  have hrelations : ∀ r, f.hasRelation r ↔ f'.hasRelation r := by
    intro r
    rw [hmarked, hmarked', refers_perm hds hrs, hrs.mem_iff, hresolve]
  have hdefinitions : ∀ d, f.hasDefinition d ↔ f'.hasDefinition d := by
    intro d
    rw [hasDefinition_iff hf, hasDefinition_iff hf', (DefinitionStore.toList_perm hds).mem_iff]
    simp only [hrelations, hresolve]
  have honce := once_ofRelations hf
  have honce' := once_ofRelations hf'
  refine ⟨f, f', hf, hf', ?_, ?_⟩
  · refine (List.perm_ext_iff_of_nodup honce.relations honce'.relations).mpr fun r => ?_
    simpa [hasRelation] using hrelations r
  · refine (List.perm_ext_iff_of_nodup honce.definitions honce'.definitions).mpr fun d => ?_
    simpa [hasDefinition] using hdefinitions d

end

/-! ## The graph -/

namespace DependencyGraph

/-- Two graphs agree but for the order in which they came about. -/
structure AgreesWith (g g' : DependencyGraph) : Prop where
  /-- The paths and kinds of the definitions come in the same order. -/
  keys : g.definitions.map Definition.key = g'.definitions.map Definition.key
  /-- The definitions are the same, as often. -/
  definitions : g.definitions.Perm g'.definitions
  /-- The relations are the same, as often. -/
  relations : g.relations.Perm g'.relations
  /-- Every relation refers to the same path. -/
  resolve : ∀ r, g.resolve r = g'.resolve r
  /-- The edges are the same, with the same weights. -/
  edges : g.references.edges.Perm g'.references.edges
  /-- The same relations are circular. -/
  circularRelations : g.flags.relations.Perm g'.flags.relations
  /-- The same definitions are circular. -/
  circularDefinitions : g.flags.definitions.Perm g'.flags.definitions

variable {results results' : List WalkResult} {policy : CyclePolicy}

/-- **The order of the files does not matter**: results in another order
make a graph that agrees with the first, under every policy that is laid
down and so under every policy with a name. -/
theorem assemble_perm (hresults : results.Perm results') (hpolicy : policy.LaidDown)
    (files files' skipped skipped' : List String) :
    ∃ g g', assemble policy results files skipped = .ok g ∧
      assemble policy results' files' skipped' = .ok g' ∧ g.AgreesWith g' := by
  have hdefinitions := hresults.flatMap_right WalkResult.definitions
  have hrelations := hresults.flatMap_right WalkResult.relations
  obtain ⟨f, f', hf, hf', hmarked, hmarkedDefs⟩ :=
    CircularFlags.flags_perm hpolicy hdefinitions hrelations
  refine ⟨_, _, congrArg (Except.map _) hf, congrArg (Except.map _) hf', ?_⟩
  exact {
    keys := DefinitionStore.map_key_perm hdefinitions
    definitions := DefinitionStore.toList_perm hdefinitions
    relations := hrelations
    resolve := DefinitionStore.resolve_ofList_perm hdefinitions
    edges := ReferenceGraph.edges_perm hdefinitions hrelations
    circularRelations := hmarked
    circularDefinitions := hmarkedDefs }

/-- The two classes that mention each other, with their files read the
other way round. -/
theorem mutualFiles_reversed :
    ∃ (policy : CyclePolicy) (g g' : DependencyGraph),
      CyclePolicy.ofName "combined" = .ok policy ∧
      assemble policy (found mutualFiles) ["a.rb", "b.rb"] [] = .ok g ∧
      assemble policy (found mutualFiles).reverse ["b.rb", "a.rb"] [] = .ok g' ∧
      g.AgreesWith g' := by
  have hname : CyclePolicy.ofName "combined" =
      .ok (.combined [.ancestry, .strong] : CyclePolicy) := rfl
  obtain ⟨g, g', hg, hg', hagree⟩ := assemble_perm (List.reverse_perm (found mutualFiles)).symm
    (CyclePolicy.laidDown_of_ofName hname) ["a.rb", "b.rb"] ["b.rb", "a.rb"] [] []
  exact ⟨_, g, g', hname, hg, hg', hagree⟩

end DependencyGraph

end ConstGraph
