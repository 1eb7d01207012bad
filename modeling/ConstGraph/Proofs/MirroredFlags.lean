import ConstGraph.Document
import ConstGraph.Proofs.FileOrder

/-!
# Flags on definitions mirror those on relations

Which relations are circular is up to the policy; which definitions are
follows from that. `Mirrored` says how, and `IsShownBy` says what the
exported document makes of it: an entry for each definition in the order of
the store, an entry for each relation in the order it came in, each with
its flag, and the relations with what they resolve to.

`flags_mirrored` is about every policy that is laid down. A record is
marked by its value, so records that are repeated or taken up again in
another file are marked alike.
-/

namespace ConstGraph

namespace DependencyGraph

/-- The flags of a graph are those of a policy, and the definitions mirror
the relations. -/
structure Mirrored (g : DependencyGraph) (policy : CyclePolicy) : Prop where
  /-- A relation is marked if it leads from one path to another, or the
  same, and the policy that has seen the graph accepts the pair. -/
  relation : ∀ r, g.flags.hasRelation r ↔
    r ∈ g.relations ∧ r.caller ≠ [] ∧ g.resolve r ≠ [] ∧
      (policy.prepare g.references).isCircular r.caller (g.resolve r) = .ok true
  /-- A definition is marked if a marked relation resolves to its path. -/
  definition : ∀ d, g.flags.hasDefinition d ↔
    d ∈ g.definitions ∧ ∃ r, g.flags.hasRelation r ∧ g.resolve r = d.path
  /-- Definitions of one path are marked alike, whatever their kinds and
  files. -/
  alike : ∀ d ∈ g.definitions, ∀ d' ∈ g.definitions, d.path = d'.path →
    g.flags.hasDefinition d = g.flags.hasDefinition d'
  /-- Relations of one value are marked alike. -/
  relation_value : ∀ r r', r == r' → g.flags.hasRelation r = g.flags.hasRelation r'
  /-- Definitions of one value are marked alike. -/
  definition_value : ∀ d d', d == d' → g.flags.hasDefinition d = g.flags.hasDefinition d'

/-- An entry of the document shows a definition with its flag. Its path is
the segments with the separator between them. -/
structure ShowsDefinition (g : DependencyGraph) (separator : String) (d : Definition)
    (entry : Json) : Prop where
  type : entry.get? "type" = some (.str d.kind.label)
  path : entry.get? "namespace" = some (.str (separator.intercalate d.path))
  circular : entry.get? "circular" = some (.bool (g.flags.hasDefinition d))
  file : entry.get? "file" = some (Storable.toJson d.file)
  line : entry.get? "line" = some (Storable.toJson d.line)
  lines : entry.get? "lines" = some (Storable.toJson d.lines)

/-- An entry of the document shows a relation with its flag and with what
it resolves to. Its paths are their segments with the separator between
them. -/
structure ShowsRelation (g : DependencyGraph) (separator : String) (r : Relation)
    (entry : Json) : Prop where
  type : entry.get? "type" = some (.str "Relation")
  path : entry.get? "namespace" = some (.str (separator.intercalate r.path))
  resolved : entry.get? "resolved_namespace" = some (.str (separator.intercalate (g.resolve r)))
  caller : entry.get? "caller" = some (.str (separator.intercalate r.caller))
  inMethod : entry.get? "def_name" = some (Storable.toJson r.inMethod)
  callee : entry.get? "target_method" = some (Storable.toJson r.callee)
  file : entry.get? "file" = some (Storable.toJson r.file)
  circular : entry.get? "circular" = some (.bool (g.flags.hasRelation r))
  line : entry.get? "line" = some (Storable.toJson r.line)

/-- A document shows a graph: the definitions in order, then the relations,
an entry for each. -/
def IsShownBy (g : DependencyGraph) (separator : String) (document : Json) : Prop :=
  ∃ definitions relations,
    document = .obj [("definitions", .arr definitions), ("relations", .arr relations)] ∧
      List.Forall₂ (g.ShowsDefinition separator) g.definitions definitions ∧
      List.Forall₂ (g.ShowsRelation separator) g.relations relations

theorem showsDefinition_entry (g : DependencyGraph) (separator : String) (d : Definition) :
    g.ShowsDefinition separator d (g.definitionEntry separator d) := by
  have hpath : (g.definitionEntry separator d).get? "namespace" =
      some (.str (separator.intercalate d.path)) := by
    rw [← ConstPath.shown_eq_intercalate]
    rfl
  exact ⟨rfl, hpath, rfl, rfl, rfl, rfl⟩

theorem showsRelation_entry (g : DependencyGraph) (separator : String) (r : Relation) :
    g.ShowsRelation separator r (g.relationEntry separator r) := by
  constructor
  case path | resolved | caller =>
    rw [← ConstPath.shown_eq_intercalate]
    rfl
  all_goals rfl

theorem isShownBy_document (g : DependencyGraph) (separator : String) :
    g.IsShownBy separator (g.document separator) := by
  refine ⟨_, _, rfl, ?_, ?_⟩
  · rw [List.forall₂_map_right_iff, List.forall₂_same]
    exact fun d _ => g.showsDefinition_entry separator d
  · rw [List.forall₂_map_right_iff, List.forall₂_same]
    exact fun r _ => g.showsRelation_entry separator r

/-- The flags a policy gives a graph are mirrored. -/
theorem mirrored_of_ofRelations {g : DependencyGraph} {policy : CyclePolicy}
    (h : CircularFlags.ofRelations policy g.relations g.store = .ok g.flags) :
    g.Mirrored policy := by
  have hdefinition := CircularFlags.hasDefinition_iff h
  refine ⟨CircularFlags.hasRelation_iff h, hdefinition, ?_, ?_, ?_⟩
  · intro d hd d' hd' hpath
    rw [Bool.eq_iff_iff, hdefinition, hdefinition, hpath]
    exact and_congr_left fun _ => iff_of_true hd hd'
  · intro r r' hr
    rw [eq_of_beq hr]
  · intro d d' hd
    rw [eq_of_beq hd]

/-- **The flags on definitions mirror those on relations**, for any
definitions and relations and every policy that is laid down, and the
document shows them as they are. -/
theorem flags_mirrored {policy : CyclePolicy} (hpolicy : policy.LaidDown) (ds : List Definition)
    (rs : List Relation) :
    ∃ flags, CircularFlags.ofRelations policy rs (.ofList ds) = .ok flags ∧
      ∀ files skipped separator,
        let g : DependencyGraph := ⟨.ofList ds, rs, flags, files, skipped⟩
        g.Mirrored policy ∧ g.definitions.Perm ds ∧
          g.IsShownBy separator (g.document separator) := by
  obtain ⟨flags, hflags, -⟩ := CircularFlags.ofRelations_laidDown hpolicy rs (.ofList ds)
  refine ⟨flags, hflags, fun files skipped separator => ⟨?_, ?_, ?_⟩⟩
  · exact mirrored_of_ofRelations hflags
  · exact DefinitionStore.toList_ofList_perm ds
  · exact isShownBy_document _ separator

/-- A class and a module of one path, in two files. -/
def reopened : List Definition :=
  [⟨["A"], .ofClass, "a.rb", 1, 3⟩, ⟨["A"], .ofModule, "b.rb", 1, 3⟩]

/-- A mention of that path inside of it. -/
def innerMention : Relation := ⟨["A"], ["A"], "", "", "a.rb", 2⟩

theorem sorted_reopened : reopened.Pairwise (Definition.precedes · ·) := by decide

/-- Both are marked, by a policy inside another. -/
theorem reopened_mirrored :
    ∃ flags, CircularFlags.ofRelations (.combined [.strong, .combined [.ancestry]]) [innerMention]
        (.ofList reopened) = .ok flags ∧
      (∀ d ∈ reopened, flags.hasDefinition d) ∧
      (⟨.ofList reopened, [innerMention], flags, [], []⟩ : DependencyGraph).Mirrored
        (.combined [.strong, .combined [.ancestry]]) := by
  have hpolicy : (.combined [.strong, .combined [.ancestry]] : CyclePolicy).LaidDown := by
    refine .combined fun p hp => ?_
    rcases List.mem_pair.mp hp with rfl | rfl
    · exact .scc []
    · exact .combined fun q hq => List.mem_singleton.mp hq ▸ .ancestry
  -- in order as they are, the definitions need not be sorted
  have hstore : DefinitionStore.ofList reopened = ⟨reopened.toArray, sorted_reopened⟩ := by
    simp only [DefinitionStore.ofList, List.mergeSort_of_pairwise sorted_reopened]
  have hmarked : (CircularFlags.ofRelations (.combined [.strong, .combined [.ancestry]])
      [innerMention] ⟨reopened.toArray, sorted_reopened⟩).toOption.any
        (reopened.all ·.hasDefinition) = true := by
    decide +kernel
  obtain ⟨flags, hflags, hgraph⟩ := flags_mirrored hpolicy reopened [innerMention]
  rw [← hstore, hflags] at hmarked
  exact ⟨flags, hflags, List.all_eq_true.1 hmarked, (hgraph [] [] "::").1⟩

end DependencyGraph

end ConstGraph
