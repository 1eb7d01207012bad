import ConstGraph.DependencyGraph
import ConstGraph.Proofs.Attribution
import ConstGraph.Proofs.Circularity
import ConstGraph.Proofs.Resolution

/-!
# What is circular is defined

A relation may name something no file of the project defines. Such a
relation is never circular under the policy that asks for a way back, and
this is a fact about the walk as much as about the policy: a walk that
starts outside every definition attributes each relation to a definition
it finds itself (`defines_caller`), so every path with a way on from it is
defined, and what lies on a cycle has one.

`flagged_between_definitions` says so of a whole project. The definitions
marked are exactly those that marked relations resolve to, whatever the
policy (`hasDefinition_iff`).
-/

namespace ConstGraph

namespace CircularFlags

variable {policy : CyclePolicy} {store : DefinitionStore} {f f' : CircularFlags} {r : Relation}

/-! ## What is marked -/

/-- The policy finds the relation circular. -/
def Judged (policy : CyclePolicy) (store : DefinitionStore) (r : Relation) : Prop :=
  ∃ arc, r.arc? store = some arc ∧ policy.isCircular arc.1 arc.2 = .ok true

theorem mem_definitions_foldl (ds : List Definition) (f : CircularFlags) (d : Definition) :
    d ∈ (ds.foldl markDefinition f).definitions ↔ d ∈ f.definitions ∨ d ∈ ds := by
  induction ds generalizing f with
  | nil => simp
  | cons e ds ih =>
    rw [List.foldl_cons, ih, markDefinition, mem_insert, List.mem_cons, or_assoc]

/-- **One judgement** marks the relation and all definitions of what it
names, or nothing. -/
theorem judge_cases (h : judge policy store f r = .ok f') :
    Judged policy store r ∧
        f' = (store.findAll (r.resolve store)).foldl markDefinition (f.markRelation r) ∨
      ¬ Judged policy store r ∧ f' = f := by
  unfold judge at h
  cases harc : r.arc? store with
  | none =>
    simp only [harc] at h
    cases h
    exact Or.inr ⟨by simp [Judged, harc], rfl⟩
  | some arc =>
    obtain ⟨caller, target⟩ := arc
    obtain ⟨-, htarget, -, -⟩ := Relation.arc?_eq_some.1 harc
    cases hcircular : policy.isCircular caller target with
    | error e =>
      simp only [harc, hcircular] at h
      cases h
    | ok circular =>
      simp only [harc, hcircular] at h
      cases circular with
      | true =>
        cases h
        exact Or.inl ⟨⟨_, harc, hcircular⟩, by rw [htarget]; rfl⟩
      | false =>
        cases h
        exact Or.inr ⟨by simp [Judged, harc, hcircular], rfl⟩

/-- **A run of judgements** marks the relations judged circular, and the
definitions of what these name. -/
theorem mem_judgeAll {rs : List Relation} (h : judgeAll policy store f rs = .ok f') :
    (∀ s, s ∈ f'.relations ↔ s ∈ f.relations ∨ s ∈ rs ∧ Judged policy store s) ∧
      ∀ d, d ∈ f'.definitions ↔
        d ∈ f.definitions ∨
          ∃ s ∈ rs, Judged policy store s ∧ d ∈ store.findAll (s.resolve store) := by
  induction rs generalizing f with
  | nil =>
    cases h
    simp
  | cons r rs ih =>
    rw [judgeAll] at h
    cases hjudge : judge policy store f r with
    | error e =>
      rw [hjudge] at h
      cases h
    | ok f₁ =>
      rw [hjudge] at h
      obtain ⟨hrelations, hdefinitions⟩ := ih h
      -- `r` is judged once, whatever the flags so far
      rcases judge_cases hjudge with ⟨hr, rfl⟩ | ⟨hr, rfl⟩
      · refine ⟨fun s => ?_, fun d => ?_⟩
        · rw [hrelations, relations_foldl_markDefinition, markRelation, mem_insert]
          grind
        · rw [hdefinitions, mem_definitions_foldl]
          change (d ∈ f.definitions ∨ _) ∨ _ ↔ _
          grind
      · refine ⟨fun s => ?_, fun d => ?_⟩
        · rw [hrelations]
          grind
        · rw [hdefinitions]
          grind

/-- **The marked definitions mirror the marked relations**: a definition
is marked exactly if a marked relation resolves to its path. -/
theorem hasDefinition_iff {rs : List Relation} (h : ofRelations policy rs store = .ok f)
    (d : Definition) :
    f.hasDefinition d ↔ d ∈ store.toList ∧ ∃ r, f.hasRelation r ∧ r.resolve store = d.path := by
  obtain ⟨hrelations, hdefinitions⟩ := mem_judgeAll h
  simp only [hasDefinition, hasRelation, List.contains_iff_mem, hrelations, hdefinitions,
    DefinitionStore.mem_findAll, beq_iff_eq, empty, List.not_mem_nil, false_or]
  constructor
  · rintro ⟨r, hr, hjudged, hd, hpath⟩
    exact ⟨hd, r, ⟨hr, hjudged⟩, hpath.symm⟩
  · rintro ⟨hd, r, ⟨hr, hjudged⟩, hpath⟩
    exact ⟨r, hr, hjudged, hd, hpath.symm⟩

end CircularFlags

/-! ## Every caller is defined -/

/-- A walk attributes a relation to where it starts or to a definition it
finds. -/
theorem Walker.caller_cases {w : Walker} {ctx : WalkContext} {t : SyntaxTree} {r : Relation}
    (hr : r ∈ (w.walk t ctx).relations) :
    r.caller = ctx.path ∨ Relation.Defines (w.walk t ctx).definitions r.caller := by
  rw [relations_walk, List.mem_filterMap] at hr
  obtain ⟨p, hp, hr⟩ := hr
  obtain ⟨m, -, rfl⟩ := Option.map_eq_some_iff.1 hr
  have hscope : w.ScopeAt ctx t p.above (w.within ctx p.above).path := scopeAt_within hp
  rw [← contextAt_path] at hscope
  unfold ScopeAt at hscope
  split at hscope
  · exact Or.inl hscope
  · obtain ⟨d, hd, hpath⟩ := hscope
    exact Or.inr ⟨d, (List.of_mem_zip hd).2, hpath.symm⟩

namespace DependencyGraph

variable (files : List (Walker × SyntaxTree))

/-- What is found in some files, each walked from outside every
definition. -/
def found : List WalkResult := files.map fun f => f.1.walk f.2 {}

/-- All definitions of some files. -/
def foundDefinitions : List Definition := (found files).flatMap (·.definitions)

/-- All relations of some files. -/
def foundRelations : List Relation := (found files).flatMap (·.relations)

/-- The store of all definitions of some files. -/
def foundStore : DefinitionStore := .ofList (foundDefinitions files)

variable {files}

/-- **Every caller is defined**, in the file the relation stands in. -/
theorem defines_caller {r : Relation} (hr : r ∈ foundRelations files) (hcaller : r.caller ≠ []) :
    Relation.Defines (foundDefinitions files) r.caller := by
  obtain ⟨result, hresult, hr⟩ := List.mem_flatMap.1 hr
  obtain ⟨file, hfile, rfl⟩ := List.mem_map.1 hresult
  rcases Walker.caller_cases hr with houter | ⟨d, hd, hpath⟩
  · exact absurd houter hcaller
  · exact ⟨d, List.mem_flatMap.2 ⟨_, hresult, hd⟩, hpath⟩

/-- So is every path that leads anywhere. -/
theorem defines_of_transGen {store : DefinitionStore} {p q : ConstPath}
    (h : Relation.TransGen (Refers (foundRelations files) store) p q) :
    Relation.Defines (foundDefinitions files) p := by
  obtain ⟨next, hedge, -⟩ := Relation.TransGen.head'_iff.1 h
  obtain ⟨r, hr, rfl, -, hcaller, -⟩ := hedge
  exact defines_caller hr hcaller

variable (files)

/-- The graph of some files under the policy that asks for a way back
marks the relations whose ends lie in a common class. -/
theorem assemble_scc (seen : List (List ConstPath)) (names skipped : List String) :
    ∃ flags, assemble (.scc seen) (found files) names skipped =
        .ok ⟨foundStore files, foundRelations files, flags, names, skipped⟩ ∧
      CircularFlags.ofRelations (.scc seen) (foundRelations files) (foundStore files) =
        .ok flags ∧
      ∀ r, flags.hasRelation r ↔ r ∈ foundRelations files ∧
        CircularFlags.Within
          (ReferenceGraph.ofRelations (foundRelations files) (foundStore files)).components
          (foundStore files) r := by
  obtain ⟨flags, hflags, hmem⟩ := CircularFlags.judgeAll_scc
    (ReferenceGraph.ofRelations (foundRelations files) (foundStore files)).components
    (foundStore files) .empty (foundRelations files)
  refine ⟨flags, congrArg (Except.map _) hflags, hflags, fun r => ?_⟩
  rw [CircularFlags.hasRelation, List.contains_iff_mem, hmem]
  simp [CircularFlags.empty]

/-- **What is circular is defined**, for any files and inferences: a
marked relation stands in a definition of the project and resolves to one,
and some definition of what it resolves to is marked with it. So a
relation that resolves to nothing the project defines is never marked. -/
theorem flagged_between_definitions (seen : List (List ConstPath)) (names skipped : List String) :
    ∃ g, assemble (.scc seen) (found files) names skipped = .ok g ∧
      (∀ r, g.flags.hasRelation r →
        (∃ d ∈ g.definitions, d.path = r.caller) ∧
          ∃ d ∈ g.definitions, d.path = g.resolve r ∧ g.flags.hasDefinition d) ∧
      ∀ r, (∀ d ∈ g.definitions, d.path ≠ g.resolve r) → ¬ g.flags.hasRelation r := by
  obtain ⟨flags, hassemble, hrun, hflagged⟩ := assemble_scc files seen names skipped
  have hdefined : ∀ r, flags.hasRelation r →
      (∃ d ∈ (foundStore files).toList, d.path = r.caller) ∧
        ∃ d ∈ (foundStore files).toList,
          d.path = r.resolve (foundStore files) ∧ flags.hasDefinition d := by
    intro r hr
    obtain ⟨hmem, hwithin⟩ := (hflagged r).1 hr
    have hcaller := hwithin.1
    have htarget := hwithin.2.1
    have hedge : Refers (foundRelations files) (foundStore files) r.caller
        (r.resolve (foundStore files)) := ⟨r, hmem, rfl, rfl, hcaller, htarget⟩
    have hwalk := (CircularFlags.within_components_iff hmem hcaller htarget).1 hwithin
    obtain ⟨d, hd, hpath⟩ := defines_caller hmem hcaller
    -- the target leads back to the caller, so it is a caller itself
    obtain ⟨e, he, hpath'⟩ := defines_of_transGen ((onClosedWalk_iff hedge).1 hwalk).1
    have he : e ∈ (foundStore files).toList := DefinitionStore.mem_toList_ofList.2 he
    exact ⟨⟨d, DefinitionStore.mem_toList_ofList.2 hd, hpath⟩, e, he, hpath',
      (CircularFlags.hasDefinition_iff hrun e).2 ⟨he, r, hr, hpath'.symm⟩⟩
  refine ⟨_, hassemble, hdefined, fun r hnone hr => ?_⟩
  obtain ⟨-, d, hd, hpath, -⟩ := hdefined r hr
  exact hnone d hd hpath

/-! Two classes that mention each other. -/

/-- A line and `more` lines after it. -/
def linesFrom (first : Int) (more : Nat) : LineSpan := ⟨first, first + more, by omega⟩

/-- A class of three lines that mentions a constant in its second. -/
def mentioningClass (own other : String) : SyntaxTree :=
  .node .classDef
    [.node .constant [.absent, .name own] (linesFrom 1 0) "", .absent,
      .node .constant [.absent, .name other] (linesFrom 2 0) ""]
    (linesFrom 1 2) ""

theorem walk_mentioningClass (w : Walker) (own other : String) :
    w.walk (mentioningClass own other) {} =
      ⟨[⟨ConstPath.unroot [own], .ofClass, w.file, 1, 3⟩],
        [⟨[other], ConstPath.unroot [own], "", "", w.file, 2⟩]⟩ := by
  simp only [Walker.walk, Walker.records, mentioningClass, Walker.run, Walker.visit,
    Walker.visitDefinition, List.tail_cons, Walker.siblings, SyntaxTree.isNode,
    Bool.false_eq_true, if_false, if_true, List.append_nil]
  rfl

/-- The two classes, each in a file of its own. -/
def mutualFiles : List (Walker × SyntaxTree) :=
  [(⟨"a.rb", .none⟩, mentioningClass "A" "B"), (⟨"b.rb", .none⟩, mentioningClass "B" "A")]

/-- The mention of one class in another. -/
def classMention (own other file : String) : Relation := ⟨[other], [own], "", "", file, 2⟩

theorem foundDefinitions_mutualFiles : foundDefinitions mutualFiles =
    [⟨["A"], .ofClass, "a.rb", 1, 3⟩, ⟨["B"], .ofClass, "b.rb", 1, 3⟩] := by
  simp only [foundDefinitions, found, mutualFiles, List.map_cons, List.map_nil,
    walk_mentioningClass]
  rfl

theorem foundRelations_mutualFiles : foundRelations mutualFiles =
    [classMention "A" "B" "a.rb", classMention "B" "A" "b.rb"] := by
  simp only [foundRelations, found, mutualFiles, List.map_cons, List.map_nil,
    walk_mentioningClass]
  rfl

/-- Neither class holds another, so a mention is of a class at the top. -/
theorem resolve_classMention (own file : String) {other : String} (h : other ≠ "") :
    (classMention own other file).resolve (foundStore mutualFiles) = [other] := by
  have hrelative : (classMention own other file).IsRelative := by
    simp [Relation.IsRelative, classMention, h]
  refine (Relation.resolve_eq_path_iff hrelative _).2 fun k hk hle => ?_
  obtain rfl : k = 1 := Nat.le_antisymm hle hk
  rw [foundDefinitions_mutualFiles]
  simp [Relation.Defines, Relation.inScope, classMention]

theorem refers_of_classMention {own other file : String} (h : other ≠ "")
    (hmem : classMention own other file ∈ foundRelations mutualFiles) :
    Refers (foundRelations mutualFiles) (foundStore mutualFiles) [own] [other] :=
  ⟨_, hmem, rfl, resolve_classMention own file h, by simp, by simp⟩

/-- The mention of `B` in `A` is circular, and so what it names is
defined. -/
theorem flagged_mention_defined :
    ∃ g, assemble (.scc []) (found mutualFiles) [] [] = .ok g ∧
      g.flags.hasRelation (classMention "A" "B" "a.rb") ∧
      ∃ d ∈ g.definitions, d.path = g.resolve (classMention "A" "B" "a.rb") ∧
        g.flags.hasDefinition d := by
  obtain ⟨flags, hassemble, -, hflagged⟩ := assemble_scc mutualFiles [] [] []
  obtain ⟨g, hg, hdefined, -⟩ := flagged_between_definitions mutualFiles [] [] []
  obtain rfl := Except.ok.inj (hassemble.symm.trans hg)
  have hmem : classMention "A" "B" "a.rb" ∈ foundRelations mutualFiles := by
    simp [foundRelations_mutualFiles]
  have hthere := refers_of_classMention (by decide) hmem
  have hmem' : classMention "B" "A" "b.rb" ∈ foundRelations mutualFiles := by
    simp [foundRelations_mutualFiles]
  have hback := refers_of_classMention (by decide) hmem'
  have hcircular : flags.hasRelation (classMention "A" "B" "a.rb") := by
    refine (hflagged _).2 ⟨hmem, ?_⟩
    have hresolve := resolve_classMention "A" "a.rb" (show "B" ≠ "" by decide)
    rw [CircularFlags.within_components_iff hmem (by simp [classMention])
      (by rw [hresolve]; simp), hresolve]
    exact (onClosedWalk_iff hthere).2
      ⟨.single hback, ["B"], by decide, .single hthere, .single hback⟩
  exact ⟨_, hassemble, hcircular, (hdefined _ hcircular).2⟩

end DependencyGraph

end ConstGraph
