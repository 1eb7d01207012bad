import ConstGraph.Proofs.CommandRuns

/-!
# What an audit accounts for

An audit lists relations up to a limit and counts those it leaves out. Both
numbers are worked out apart, by `firstUpTo` and `restRow`, and they add up
to the number of relations exactly if the limit is not below zero
(`length_firstUpTo_add_rest`): below zero the rows are counted from the end,
but the rest is still counted from the limit.

A relation bears the mark of a cycle in its row if it is among those the
summary counts (`filter_listed`). The files the summary counts are those
that were found: a graph names every file that contributes to it
(`files_of_build`).
-/

namespace ConstGraph

/-! ## The files of a build -/

namespace Project

variable {o : Options} {p : PathName} {c : AnalysisCache} {cache cache' : Option AnalysisCache}
  {s s' : Session}

theorem Turn.path_eq {t t' : FileTree} {found : Contribution}
    {outcome : Except Failure (Contribution × Option AnalysisCache)} (h : Turn o c t p outcome t')
    (hok : outcome = .ok (found, cache')) : found.path = p := by
  cases h <;> cases hok <;> rfl

/-- What a file contributes bears its path. -/
theorem path_of_process {found : Contribution}
    (h : (process o cache p).run.run s = (.ok (found, cache'), s')) : found.path = p := by
  cases cache with
  | none =>
    obtain ⟨log, hrun⟩ := run_process_none o p s
    rw [hrun, examine] at h
    cases hanalysis : analysis o s.tree p with
    | error e =>
      rw [hanalysis] at h
      cases h
    | ok a =>
      rw [hanalysis] at h
      cases h
      rfl
  | some c => exact (turn_process o c p s).path_eq (congrArg Prod.fst h)

/-- The files contribute one by one. -/
theorem map_path_of_processAll {ps : List PathName} {found : List Contribution}
    (h : ((processAll o cache ps).run.run s).1 = .ok found) : found.map (·.path) = ps := by
  induction ps generalizing cache s found with
  | nil =>
    cases h
    rfl
  | cons p ps ih =>
    obtain ⟨first, cache', s', rest, hfirst, hrest, rfl⟩ := exists_of_processAll_cons h
    rw [List.map_cons, path_of_process hfirst, ih hrest]

/-- **A graph names the files that were found**, and those of them that were
skipped. -/
theorem files_of_build {env : Environment} {root : PathName} {useCache used : Bool}
    {patterns : List String} {g : DependencyGraph Json Json}
    (h : (build env root useCache patterns).run.run s = (.ok (g, used), s')) :
    ∃ files, discover ((openCache env root useCache).run.run s).2.tree root env.cachePath patterns =
        .ok files ∧ g.files = files.map (·.text) ∧ g.skipped.Sublist g.files := by
  rw [run_build] at h
  rcases hlimit : limitOf env with e | limit <;> rw [hlimit] at h
  · cases h
  rcases hopen : (openCache env root useCache).run.run s with ⟨e | cache, s₁⟩ <;> rw [hopen] at h
  · cases h
  dsimp only at h ⊢
  rcases hfiles : discover s₁.tree root env.cachePath patterns with e | files <;> rw [hfiles] at h
  · cases h
  dsimp only at h
  rcases hrun : (processAll ⟨limit, env.inference⟩ cache files).run.run s₁ with ⟨e | found, s₂⟩ <;>
    rw [hrun] at h
  · cases h
  dsimp only at h
  rcases hconclude : conclude env files found with e | g' <;> rw [hconclude] at h
  · cases h
  cases h
  obtain ⟨flags, rfl⟩ := exists_flags_of_conclude hconclude
  have hpaths : found.map (·.path) = files :=
    map_path_of_processAll (congrArg Prod.fst hrun)
  have htexts : files.map (·.text) = found.map (·.path.text) := by
    rw [← hpaths, List.map_map]
    rfl
  refine ⟨files, rfl, rfl, ?_⟩
  show ((found.filter (·.skipped)).map (·.path.text)).Sublist (files.map (·.text))
  rw [htexts]
  exact List.filter_sublist.map _

end Project

/-! ## Texts of cells -/

/-- The cell beside a label. -/
def Table.beside? (t : Table) (label : String) : Option String :=
  (t.rows.find? (·.head? == some label)).bind (·[1]?)

namespace DependencyGraph

variable {σ ν : Type} [Segment σ] [BEq ν] [Storable σ] [Storable ν]

/-! ## The rows up to a limit -/

/-- The last row of a listing that leaves out `n` relations. -/
def closingRow (n : Nat) : List (List String) :=
  if n = 0 then [] else [["", "", "", s!"... and {n} more", ""]]

/-- The last row speaks of as many relations as there are above the
limit. -/
theorem restRow_eq (limit : Int) (count : Nat) :
    restRow limit count = closingRow ((count : Int) - limit).toNat := by
  unfold restRow closingRow
  by_cases h : limit < count
  · obtain ⟨n, hn⟩ := Int.eq_ofNat_of_zero_le (a := (count : Int) - limit) (by omega)
    have hpos : n ≠ 0 := by omega
    rw [if_pos h, hn, Int.toNat_natCast, if_neg hpos]
    rfl
  · have hzero : ((count : Int) - limit).toNat = 0 := by omega
    rw [if_neg h, hzero, if_pos rfl]

theorem length_firstUpTo {α : Type} (limit : Int) (xs : List α) :
    (firstUpTo limit xs).length =
      if 0 ≤ limit then min limit.toNat xs.length else xs.length - limit.natAbs := by
  unfold firstUpTo
  split
  · exact List.length_take
  · rw [List.length_take]
    omega

/-- The first relations up to a limit are as many of them as there are. -/
theorem firstUpTo_eq_take {α : Type} (limit : Int) (xs : List α) :
    firstUpTo limit xs = xs.take (firstUpTo limit xs).length := by
  have hinitial : firstUpTo limit xs <+: xs := by
    unfold firstUpTo
    split <;> exact List.take_prefix _ _
  exact List.prefix_iff_eq_take.1 hinitial

/-- **Nothing is left out of account exactly if the limit is not below
zero.** -/
theorem length_firstUpTo_add_rest {α : Type} (limit : Int) (xs : List α) :
    (firstUpTo limit xs).length + ((xs.length : Int) - limit).toNat = xs.length ↔ 0 ≤ limit := by
  rw [length_firstUpTo]
  split <;> omega

/-! ## The rows of relations -/

variable (g : DependencyGraph σ ν) (separator : String)

/-- The row of a relation tells where it stands. -/
theorem head?_relationRow (r : Relation σ ν) : (g.relationRow separator r).head? ≠ some "" := by
  have hplace : (if r.caller.shown separator = "" then "(top level)"
      else r.caller.shown separator) ≠ "" := by
    split
    · decide
    · assumption
  intro h
  exact Markup.escape_ne_empty hplace (Option.some.inj h)

theorem arrow_relationRow (r : Relation σ ν) :
    (g.relationRow separator r)[2]? = some (if g.flags.hasRelation r then "↻" else "→") := rfl

/-- **The relations that bear the mark of a cycle are the circular ones.** -/
theorem filter_listed (all : Bool) :
    ((g.listed all).filter fun r => (g.relationRow separator r)[2]? = some "↻") =
      g.circularRelations := by
  have hmark : ∀ r, decide ((g.relationRow separator r)[2]? = some "↻") =
      g.flags.hasRelation r := by
    intro r
    rw [arrow_relationRow]
    cases g.flags.hasRelation r <;> decide
  simp only [hmark]
  cases all with
  | true => rfl
  | false => exact (List.filter_filter).trans (by simp [circularRelations])

/-- The second table lists what there is, if there is anything. -/
theorem mem_auditReport {all : Bool} {limit : Int} {t : Table}
    (h : .table t ∈ g.auditReport separator all limit) :
    t = g.summaryTable ∨ g.listed all ≠ [] ∧ t = g.relationTable separator all limit := by
  unfold auditReport at h
  rcases List.mem_cons.1 h with h | h
  · exact Or.inl (Printed.table.inj h)
  · have h := List.mem_singleton.1 h
    split at h
    · cases h
    · next hlisted =>
      refine Or.inr ⟨?_, Printed.table.inj h⟩
      intro hnil
      rw [hnil] at hlisted
      exact hlisted rfl

/-- **An audit accounts for every relation and every file.** The rows of a
listing are those of the first relations listed, in their order, and a last
row counts the rest; the two numbers add up exactly if the limit is not
below zero, and else the last row counts more than there are. Of the
relations listed those with the mark of a cycle are the circular ones,
which the summary counts, and all others bear an arrow. The files the
summary counts are all files of the graph; in a run these are the files
that were found, and whatever table the run prints is one of the two. -/
theorem audit_accounts_for_relations (all : Bool) (limit : Int) :
    (∃ shown left, (g.relationTable separator all limit).rows =
        ((g.listed all).take shown).map (g.relationRow separator) ++ closingRow left ∧
      shown ≤ (g.listed all).length ∧
      (shown + left = (g.listed all).length ↔ 0 ≤ limit) ∧
      (limit < 0 → left = (g.listed all).length + limit.natAbs)) ∧
    (∀ r, (g.relationRow separator r).head? ≠ some "" ∧
      ((g.relationRow separator r)[2]? = some "↻" ∨ (g.relationRow separator r)[2]? = some "→")) ∧
    ((g.listed all).filter fun r => (g.relationRow separator r)[2]? = some "↻") =
      g.circularRelations ∧
    g.summaryTable.beside? "Circular relations" = some (toString g.circularRelations.length) ∧
    (∃ analyzed : Int, g.summaryTable.beside? "Files analyzed" = some (toString analyzed) ∧
      g.summaryTable.beside? "Files skipped" = some (toString g.skipped.length) ∧
      analyzed + g.skipped.length = g.files.length) ∧
    ∀ (s : Command.Setting) (tree : FileTree) (path : String) (noCache : Bool) (t : Table),
      .table t ∈ (Command.runOn s tree (.auditGraph path noCache all limit)).session.console →
      ∃ (h : DependencyGraph Json Json) (used : Bool) (start after : Session)
          (files : List PathName),
        start.tree = tree ∧
        (Project.build s.env (s.directory.join (.ofString path)) (!noCache) []).run.run start =
          (.ok (h, used), after) ∧
        Project.discover
            ((Project.openCache s.env (s.directory.join (.ofString path)) (!noCache)).run.run
              start).2.tree
            (s.directory.join (.ofString path)) s.env.cachePath [] = .ok files ∧
        h.files = files.map (·.text) ∧ h.skipped.Sublist h.files ∧
        (t = h.summaryTable ∨
          h.listed all ≠ [] ∧ t = h.relationTable s.env.separator all limit) := by
  refine ⟨?_, ?_, g.filter_listed separator all, rfl, ?_, ?_⟩
  · refine ⟨(firstUpTo limit (g.listed all)).length, (((g.listed all).length : Int) - limit).toNat,
      ?_, ?_, length_firstUpTo_add_rest limit (g.listed all), by omega⟩
    · rw [← firstUpTo_eq_take, ← restRow_eq]
      rfl
    · rw [firstUpTo_eq_take, List.length_take]
      omega
  · intro r
    refine ⟨g.head?_relationRow separator r, ?_⟩
    rw [arrow_relationRow]
    cases g.flags.hasRelation r with
    | true => exact Or.inl rfl
    | false => exact Or.inr rfl
  · refine ⟨(g.files.length : Int) - g.skipped.length, rfl, rfl, ?_⟩
    omega
  · intro s tree path noCache t ht
    -- what an audit may print is the report of a graph that was built
    obtain ⟨h, ⟨start, after, used, htree, hbuild⟩, hreport⟩ :=
      Command.mayPrint_of_table_mem (List.mem_append_left _ ht)
    obtain ⟨files, hfiles, hnamed, hskipped⟩ := Project.files_of_build hbuild
    exact ⟨h, used, start, after, files, htree, hbuild, hfiles, hnamed, hskipped,
      h.mem_auditReport s.env.separator hreport⟩

/-- A class that is mentioned once. -/
def mentionedOnce : DependencyGraph :=
  ⟨.ofList [⟨["A"], .ofClass, "a.rb", 1, 2⟩], [⟨["A"], ["B"], "run", "new", "a.rb", 5⟩], .empty,
    ["a.rb"], []⟩

/-- With the limit one below zero its only mention has no row, but two are
said to be left out. -/
theorem mentionedOnce_overcounted :
    (mentionedOnce.listed true).length = 1 ∧
      (mentionedOnce.relationTable "::" true (-1)).rows = [["", "", "", "... and 2 more", ""]] ∧
      ¬ ∃ shown left, (mentionedOnce.relationTable "::" true (-1)).rows =
          ((mentionedOnce.listed true).take shown).map (mentionedOnce.relationRow "::") ++
            closingRow left ∧
        shown + left = (mentionedOnce.listed true).length := by
  have hrows : (mentionedOnce.relationTable "::" true (-1)).rows =
      [["", "", "", "... and 2 more", ""]] := by decide +kernel
  refine ⟨rfl, hrows, ?_⟩
  rintro ⟨shown, left, heq, hsum⟩
  rw [hrows] at heq
  match shown with
  | 0 =>
    obtain rfl : left = 1 := (Nat.zero_add left).symm.trans hsum
    exact absurd heq (by decide +kernel)
  | k + 1 =>
    -- a first row that is of a relation is never blank
    have hhead := congrArg (fun rows => rows.head?.bind List.head?) heq
    exact mentionedOnce.head?_relationRow "::" _ hhead.symm

end DependencyGraph

end ConstGraph
