import ConstGraph.Proofs.DefinedCycles

/-!
# What a call without receiver resolves to

A call without receiver is recorded as a relation to the scope it stands
in, by the path of that scope. The path is looked up like any other, from
the innermost scope outwards, so it need not come back to the scope it was
taken from: inside `A`, the path `A` is `A::A` if there is such a
definition. `resolve_selfCall` says when it does come back, and
`selfCall_resolves_to_namesake` is a project where it does not.
-/

namespace ConstGraph

namespace Relation

variable {ds : List Definition} {r : Relation}

/-- No path is itself without its marker, if it has one. -/
theorem unroot_eq_self_iff {p : ConstPath} : p.unroot = p ↔ p.isRooted = false := by
  constructor
  · intro h
    rw [isRooted_eq_false_iff]
    rintro q rfl
    have := congrArg List.length h
    simp at this
  · exact ConstPath.unroot_of_not_isRooted

/-- The scopes around a relation are the initial parts of its caller. -/
theorem not_defines_inScope_iff :
    (∀ k, 0 < k → k ≤ r.caller.length → ¬ Defines ds (r.inScope k)) ↔
      ∀ outer, outer ≠ [] → outer <+: r.caller → ¬ Defines ds (outer ++ r.path) := by
  constructor
  · intro h outer hne houter
    have := h outer.length (List.length_pos_of_ne_nil hne) houter.length_le
    rwa [inScope, ← List.prefix_iff_eq_take.1 houter] at this
  · intro h k hk hle
    refine h (r.caller.take k) ?_ (List.take_prefix _ _)
    intro hnil
    have := congrArg List.length hnil
    simp only [List.length_take, List.length_nil] at this
    omega

/-- **A relation to the scope it stands in** resolves to that scope
exactly if the path of the scope is not rooted and no scope around defines
it again. -/
theorem resolve_eq_caller_iff (hself : r.path = r.caller) :
    r.resolve (.ofList ds) = r.caller ↔
      r.caller.isRooted = false ∧
        ∀ outer, outer ≠ [] → outer <+: r.caller → ¬ Defines ds (outer ++ r.caller) := by
  rw [← hself]
  by_cases hrelative : r.IsRelative
  · rw [resolve_eq_path_iff hrelative, not_defines_inScope_iff, hself]
    have hrooted : r.caller.isRooted = false := by
      rw [← hself]
      exact isRooted_eq_false_iff.2 hrelative.1
    simp [hrooted]
  · rw [resolve_of_isAbsolute ((r.isAbsolute_iff).2 hrelative), unroot_eq_self_iff]
    refine ⟨fun hrooted => ⟨hrooted, fun outer hne houter => ?_⟩, And.left⟩
    -- an absolute relation without a root marker stands outside every definition
    have hcaller : r.caller = [] := by
      by_contra hne
      exact hrelative ⟨isRooted_eq_false_iff.1 hrooted, hne⟩
    rw [hself, hcaller, List.prefix_nil] at houter
    exact absurd houter hne

/-- Such a relation resolves to something defined if its scope is. -/
theorem exists_resolve_of_defines (hself : r.path = r.caller) (hrelative : r.IsRelative)
    (hdef : Defines ds r.caller) :
    ∃ outer, outer <+: r.caller ∧ r.resolve (.ofList ds) = outer ++ r.caller ∧
      Defines ds (outer ++ r.caller) := by
  have hnames := r.names_resolve ds
  generalize r.resolve (.ofList ds) = target at hnames
  cases hnames with
  | rooted hroot => exact absurd hroot (hrelative.1 _)
  | outside _ hcaller => exact absurd hcaller hrelative.2
  | @innermost k _ _ hk _ =>
    rw [← hself]
    exact ⟨r.caller.take k, by rw [hself]; exact List.take_prefix _ _, rfl, hk⟩
  | undefined _ hnone =>
    -- the last place to look is outside every scope, where the caller itself is found
    have hnot := hnone 0 (Nat.zero_le _)
    rw [inScope, List.take_zero, List.nil_append, hself] at hnot
    exact absurd hdef hnot

end Relation

namespace DependencyGraph

variable (files : List (Walker × SyntaxTree))

/-- **A call without receiver resolves to the scope it stands in** exactly
if the path of that scope is not rooted and no scope around it defines the
same path again. Otherwise, inside a definition that is not rooted, it
resolves to that other definition: the path of its scope put into one of
the scopes around it. -/
theorem resolve_selfCall {file : Walker × SyntaxTree} (hfile : file ∈ files) {p : Site}
    {r : Relation} {callee : String} (hr : (p, r) ∈ file.1.relationsAt {} file.2)
    (hself : p.here.mention? = some (.onSelf callee)) :
    (r.resolve (foundStore files) = r.caller ↔
        r.caller.isRooted = false ∧
          ∀ outer, outer ≠ [] → outer <+: r.caller →
            ¬ Relation.Defines (foundDefinitions files) (outer ++ r.caller)) ∧
      (r.caller.isRooted = false → r.caller ≠ [] →
        ∃ outer, outer <+: r.caller ∧ r.resolve (foundStore files) = outer ++ r.caller ∧
          Relation.Defines (foundDefinitions files) (outer ++ r.caller)) := by
  have hpath : r.path = r.caller := by
    obtain ⟨-, m, hm, rfl⟩ := Walker.mem_relationsAt.1 hr
    obtain rfl := Option.some.inj (hself.symm.trans hm)
    rfl
  refine ⟨Relation.resolve_eq_caller_iff hpath, fun hrooted hcaller => ?_⟩
  have hrelative : r.IsRelative :=
    ⟨by rw [hpath]; exact Relation.isRooted_eq_false_iff.1 hrooted, hcaller⟩
  have hmem : r ∈ foundRelations files :=
    List.mem_flatMap.2 ⟨_, List.mem_map.2 ⟨file, hfile, rfl⟩, (List.of_mem_zip hr).2⟩
  exact Relation.exists_resolve_of_defines hpath hrelative (defines_caller hmem hcaller)

/-! A module `A` with another module inside it and a call after that. -/

/-- The module inside, on the second and third line. -/
def innerModule (inner : String) : SyntaxTree :=
  .node .moduleDef [.node .constant [.absent, .name inner] (linesFrom 2 0) ""] (linesFrom 2 1) ""

/-- `module A; module inner; end; foo; end`, on five lines. -/
def callingModule (inner : String) : SyntaxTree :=
  .node .moduleDef
    [.node .constant [.absent, .name "A"] (linesFrom 1 0) "", innerModule inner,
      .node .call [.absent, .name "foo"] (linesFrom 4 0) ""]
    (linesFrom 1 4) ""

/-- The site of the call. -/
def callSite (inner : String) : Site where
  here := ⟨.call, [.absent, .name "foo"], linesFrom 4 0, "", [innerModule inner]⟩
  above := [⟨.moduleDef, (callingModule inner).children, linesFrom 1 4, "", []⟩]

/-- The relation of the call. -/
def callRelation : Relation := ⟨["A"], ["A"], "", "foo", "a.rb", 4⟩

/-- The file the module stands in. -/
def callingFile (inner : String) : Walker × SyntaxTree := (⟨"a.rb", .none⟩, callingModule inner)

theorem sites_callingModule (inner : String) :
    (callingModule inner).sites =
      [⟨⟨.moduleDef, (callingModule inner).children, linesFrom 1 4, "", []⟩, []⟩,
        ⟨⟨.moduleDef, (innerModule inner).children, linesFrom 2 1, "", []⟩, (callSite inner).above⟩,
        callSite inner] := by
  simp [SyntaxTree.sites, callingModule, innerModule, SyntaxTree.sitesFrom_node,
    NodeKind.entered, SyntaxTree.sitesAmong_cons, callSite, SyntaxTree.children]

theorem mem_relationsAt_callingFile (inner : String) :
    (callSite inner, callRelation) ∈
      (callingFile inner).1.relationsAt {} (callingFile inner).2 := by
  refine Walker.mem_relationsAt.2 ⟨?_, .onSelf "foo", rfl, rfl⟩
  simp [callingFile, sites_callingModule]

theorem foundDefinitions_callingFile (inner : String) :
    foundDefinitions [callingFile inner] =
      [⟨["A"], .ofModule, "a.rb", 1, 5⟩, ⟨["A", inner], .ofModule, "a.rb", 2, 2⟩] := by
  simp only [foundDefinitions, found, List.map_cons, List.map_nil, List.flatMap_cons,
    List.flatMap_nil, callingFile, Walker.definitions_walk, sites_callingModule]
  rfl

/-- With `A::B` inside `A`, the call in `A` resolves to `A`. -/
theorem selfCall_resolves_to_caller :
    (callSite "B", callRelation) ∈ (callingFile "B").1.relationsAt {} (callingFile "B").2 ∧
      callRelation.resolve (foundStore [callingFile "B"]) = callRelation.caller := by
  have hmem := mem_relationsAt_callingFile "B"
  refine ⟨hmem, (resolve_selfCall [callingFile "B"] (by simp) hmem rfl).1.2 ⟨rfl, ?_⟩⟩
  intro outer hne houter
  obtain rfl : outer = ["A"] := by
    rcases List.prefix_cons_iff.1 houter with rfl | ⟨rest, rfl, hrest⟩
    · exact absurd rfl hne
    · rw [List.prefix_nil.1 hrest]
  rw [foundDefinitions_callingFile]
  simp [Relation.Defines, callRelation]

/-- **With `A::A` inside `A` it does not**: the path `A` is looked up
inside `A` first. -/
theorem selfCall_resolves_to_namesake :
    (callSite "A", callRelation) ∈ (callingFile "A").1.relationsAt {} (callingFile "A").2 ∧
      (callSite "A").here.mention? = some (.onSelf "foo") ∧
      (nearest? Step.isDefinition (callSite "A").above).isSome ∧
      callRelation.caller = ["A"] ∧
      callRelation.resolve (foundStore [callingFile "A"]) = ["A", "A"] := by
  refine ⟨mem_relationsAt_callingFile "A", rfl, rfl, rfl, ?_⟩
  have hrelative : callRelation.IsRelative := ⟨by simp [callRelation], by simp [callRelation]⟩
  have hinner : callRelation.Names (foundDefinitions [callingFile "A"])
      (callRelation.inScope 1) := by
    -- `A` is the only scope around the call, and it defines the path again
    refine .innermost hrelative (by simp [callRelation]) ?_ ?_
    · rw [foundDefinitions_callingFile]
      exact ⟨⟨["A", "A"], .ofModule, "a.rb", 2, 2⟩, by simp, rfl⟩
    · intro j h1 h2 _
      simp only [callRelation, List.length_singleton] at h2
      omega
  exact (Relation.names_resolve _ callRelation).unique hinner

end DependencyGraph

end ConstGraph
