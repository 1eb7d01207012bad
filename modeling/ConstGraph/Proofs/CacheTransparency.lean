import ConstGraph.Proofs.CacheEntries
import ConstGraph.Proofs.CachedBuild

/-!
# Is a cache transparent?

A workspace `Reaches` its states by edits of the files, changes of the
settings and builds with a cache, in any order. Whatever its history, a
build with a cache gives what a build without one gives on the same files
**exactly if every file whose results it takes from the cache is still
admitted** (`outcome_eq_fresh_iff_served_admitted`); this rests on what time
and size tell of a file, and on no source being the file of a cache.

Nothing ensures that these files are admitted: the cache is asked before
anything else, and its keys do not name the size limit. A file that has
become too large is served from the cache all the same
(`served_beyond_limit`).
-/

namespace ConstGraph

namespace Project

variable {env : Environment} {t t' : FileTree} {root : PathName} {patterns : List String}
variable {past : List FileTree}

/-! ## With a cache or without -/

/-- A source a cache can deal with: its name can be asked for, it is not the
file of a cache itself, and what is found in it can be stored. -/
structure Plain (env : Environment) (t : FileTree) (p : PathName) : Prop where
  /-- The name holds no null character. -/
  named : p.text.contains '\x00' = false
  /-- It is not the file of a cache. -/
  apart : IsApart t p
  /-- No number in its results is too long. -/
  storable : ∀ limit found, limitOf env = .ok limit →
    examine ⟨limit, env.inference⟩ t p = .ok found → found.result.isStorable

/-- The file at a path is admitted under the settings. -/
def IsAdmitted (env : Environment) (t : FileTree) (p : PathName) : Prop :=
  ∃ limit, limitOf env = .ok limit ∧ t.admits limit p = true

/-- The cache of a project can be opened, or it needs none because it is no
directory. -/
def Opens (env : Environment) (t : FileTree) (root : PathName) : Prop :=
  ∃ cache, ((openCache env root true).run.run { tree := t }).1 = .ok cache

/-- In a build with a cache, the results of a file come from the cache. -/
def IsServed (env : Environment) (t : FileTree) (root : PathName) (patterns : List String)
    (p : PathName) : Prop :=
  ∃ limit c files, limitOf env = .ok limit ∧
    ((openCache env root true).run.run { tree := t }).1 = .ok (some c) ∧
    discover (opened env t root).tree root env.cachePath patterns = .ok files ∧
    Serves ⟨limit, env.inference⟩ c (opened env t root) files p

section Builds

variable {limit : SizeLimit} {files : List PathName}

/-- A build that succeeds has opened its cache. -/
theorem opens_of_outcome_eq_ok {g : DependencyGraph Json Json}
    (h : outcome env t root true patterns = .ok g) : Opens env t root := by
  unfold outcome at h
  rw [run_build] at h
  cases hlimit : limitOf env with
  | error e =>
    rw [hlimit] at h
    cases h
  | ok limit =>
    rcases hopen : (openCache env root true).run.run { tree := t } with ⟨e | cache, s⟩
    · rw [hlimit, hopen] at h
      cases h
    · exact ⟨cache, congrArg Prod.fst hopen⟩

/-- The cache can be relied on for every source. -/
theorem reliable_opened (h : Kept (seenIn past) t t) (hlimit : limitOf env = .ok limit)
    (hfiles : discover (opened env t root).tree root env.cachePath patterns = .ok files)
    (hplain : ∀ p, IsSource env (left env t root patterns) root patterns p →
      Plain env (left env t root patterns) p)
    (htelling : Telling (left env t root patterns) past) :
    ∀ p ∈ files, Reliable (seenIn (left env t root patterns :: past)) ⟨limit, env.inference⟩
      (opened env t root).tree p := by
  intro p hp
  have hsame := sameFiles_left h hlimit root patterns
  have hsource : IsSource env (left env t root patterns) root patterns p :=
    ⟨files, (hsame.discover root env.cachePath patterns).trans hfiles, hp⟩
  obtain ⟨hnamed, hapart, hstorable⟩ := hplain p hsource
  refine ⟨hnamed, fun t' ht' => shows_seenIn (Eq.trans ht' hsame.symm) hapart,
    fun t' ht' => tells_seenIn (Eq.trans ht' hsame.symm) hapart htelling, fun a ha => ?_⟩
  refine hstorable limit ⟨p, a.result.values, a.skipped⟩ hlimit ?_
  rw [examine_congr hsame, examine, ha]
  rfl

/-- **A build that serves only admitted files gives what a build without a
cache does.** -/
theorem outcome_eq_of_admitted (h : Kept (seenIn past) t t) (hopens : Opens env t root)
    (hplain : ∀ p, IsSource env (left env t root patterns) root patterns p →
      Plain env (left env t root patterns) p)
    (htelling : Telling (left env t root patterns) past)
    (hsame : t'.SameFiles (left env t root patterns))
    (hadmitted : ∀ p, IsServed env t root patterns p → IsAdmitted env t' p) :
    outcome env t root true patterns = outcome env t' root false patterns := by
  obtain ⟨cache, hopen⟩ := hopens
  have h' : Kept (seenIn (left env t root patterns :: past)) t t :=
    h.mono fun _ _ _ _ => seenIn_cons
  -- both builds go through the same stages and part only where files are
  -- processed
  rw [outcome_fresh_congr hsame, outcome_cached hopen]
  cases hlimit : limitOf env with
  | error e =>
    rw [outcome_fresh, hlimit]
    dsimp only [Except.bind]
  | ok limit =>
    rw [outcome_fresh_congr (sameFiles_left h hlimit root patterns), outcome_fresh, hlimit]
    dsimp only [Except.bind]
    cases hfiles : discover (opened env t root).tree root env.cachePath patterns with
    | error e => rfl
    | ok files =>
      have hfound : ((processAll ⟨limit, env.inference⟩ cache files).run.run
          (opened env t root)).1 =
            files.mapM (examine ⟨limit, env.inference⟩ (opened env t root).tree) := by
        cases cache with
        | none =>
          obtain ⟨log, hrun⟩ := run_processAll_none ⟨limit, env.inference⟩ files (opened env t root)
          rw [hrun]
        | some c =>
          refine processAll_eq_mapM (ready_opened h' hopen) (by dsimp only)
            (reliable_opened h hlimit hfiles hplain htelling) fun q hq => ?_
          have hserved : IsServed env t root patterns q :=
            ⟨limit, c, files, hlimit, hopen, hfiles, hq⟩
          obtain ⟨limit', hlimit', hadmits⟩ := hadmitted q hserved
          cases hlimit.symm.trans hlimit'
          rw [← (sameFiles_left h hlimit root patterns).admits, ← hsame.admits]
          exact hadmits
      dsimp only
      rw [hfound]

/-- **A build that serves a file that is not admitted gives something
else**: that file is not among the skipped ones. -/
theorem admitted_of_outcome_eq {g : DependencyGraph Json Json} {p : PathName}
    (h : Kept (seenIn past) t t)
    (hplain : ∀ p, IsSource env (left env t root patterns) root patterns p →
      Plain env (left env t root patterns) p)
    (htelling : Telling (left env t root patterns) past)
    (hsame : t'.SameFiles (left env t root patterns))
    (hcached : outcome env t root true patterns = .ok g)
    (hfresh : outcome env t' root false patterns = .ok g)
    (hserved : IsServed env t root patterns p) : IsAdmitted env t' p := by
  obtain ⟨limit, c, files, hlimit, hopen, hfiles, hserves⟩ := hserved
  have h' : Kept (seenIn (left env t root patterns :: past)) t t :=
    h.mono fun _ _ _ _ => seenIn_cons
  have hsame' : t'.SameFiles (opened env t root).tree :=
    Eq.trans hsame (sameFiles_left h hlimit root patterns)
  rw [outcome_fresh_congr hsame', outcome_fresh, hlimit] at hfresh
  rw [outcome_cached hopen, hlimit] at hcached
  dsimp only [Except.bind] at hfresh hcached
  rw [hfiles] at hfresh hcached
  dsimp only at hfresh hcached
  rcases hfound : ((processAll ⟨limit, env.inference⟩ (some c) files).run.run
    (opened env t root)).1 with e | found
  · rw [hfound] at hcached
    cases hcached
  rcases hfresh' : files.mapM (examine ⟨limit, env.inference⟩ (opened env t root).tree) with
    e | fresh
  · rw [hfresh'] at hfresh
    cases hfresh
  rw [hfound] at hcached
  rw [hfresh'] at hfresh
  -- equal graphs skip equally many files, and a file served past the limit
  -- would make one less with the cache
  have hskipped : found.countP (·.skipped) = fresh.countP (·.skipped) := by
    have hnames := (skipped_of_conclude hcached).symm.trans (skipped_of_conclude hfresh)
    have hlength := congrArg List.length hnames
    rwa [List.length_map, List.length_map, ← List.countP_eq_length_filter,
      ← List.countP_eq_length_filter] at hlength
  refine ⟨limit, hlimit, ?_⟩
  rw [hsame'.admits]
  by_contra hadmits
  have hlt := (countP_skipped_lt (ready_opened h' hopen) (by dsimp only)
    (reliable_opened h hlimit hfiles hplain htelling) hfound hfresh').2 p hserves
    (by simpa using hadmits)
  omega

end Builds

/-! ## Histories -/

/-- The files of a project and the settings in force. -/
structure Workspace where
  /-- The files. -/
  tree : FileTree
  /-- The settings. -/
  env : Environment

/-- What can come to pass in a workspace that starts without a cache: files
are edited in any way that brings in no tables from elsewhere, settings
are changed, and projects are built with a cache, as long as no source is
the file of a cache. The trees that builds have left are kept in mind, the
latest one first. -/
inductive Reaches : List FileTree → Workspace → Prop
  /-- Nothing has been built yet. -/
  | start {t : FileTree} {env : Environment} : t.top.Proper →
      (∀ tables, ¬ t.top.Holds tables) → Reaches [] ⟨t, env⟩
  /-- Files are changed. -/
  | edit {past : List FileTree} {w : Workspace} {t : FileTree} : Reaches past w →
      t.top.Proper → (∀ tables, t.top.Holds tables → w.tree.top.Holds tables) →
      Reaches past { w with tree := t }
  /-- Settings are changed. -/
  | configure {past : List FileTree} {w : Workspace} {env : Environment} : Reaches past w →
      Reaches past { w with env := env }
  /-- A project is built with its cache. -/
  | build {past : List FileTree} {w : Workspace} {root : PathName} {patterns : List String} :
      Reaches past w →
      (∀ p, IsSource w.env (left w.env w.tree root patterns) root patterns p →
        IsApart (left w.env w.tree root patterns) p) →
      Reaches (left w.env w.tree root patterns :: past)
        { w with tree := left w.env w.tree root patterns }

/-- **At any time all caches hold nothing but what was found in the trees
that builds have left.** -/
theorem Reaches.kept {past : List FileTree} {w : Workspace} (h : Reaches past w) :
    Kept (seenIn past) w.tree w.tree := by
  induction h with
  | start hproper hnone => exact ⟨hproper, rfl, fun tables ht => absurd ht (hnone tables)⟩
  | edit _ hproper hheld ih =>
    exact ⟨hproper, rfl, fun tables ht => ih.held tables (hheld tables ht)⟩
  | configure _ ih => exact ih
  | build _ hapart ih => exact kept_left ih hapart

/-- **A cache is transparent exactly as far as it serves files that are
admitted.** After any history, let the sources of a project be plain, and
let time and size tell the contents of a file from those it had in the
trees that builds have left. If the cache opens and all files it serves
are admitted, a build with the cache gives what a build without one gives
on the same files, errors included; and if the latter build succeeds, it
is so only then. -/
theorem outcome_eq_fresh_iff_served_admitted {w : Workspace} (h : Reaches past w)
    (hplain : ∀ p, IsSource w.env (left w.env w.tree root patterns) root patterns p →
      Plain w.env (left w.env w.tree root patterns) p)
    (htelling : Telling (left w.env w.tree root patterns) past)
    (hsame : t.SameFiles (left w.env w.tree root patterns)) :
    ((Opens w.env w.tree root ∧
        ∀ p, IsServed w.env w.tree root patterns p → IsAdmitted w.env t p) →
      outcome w.env w.tree root true patterns = outcome w.env t root false patterns) ∧
    ∀ g, outcome w.env t root false patterns = .ok g →
      (outcome w.env w.tree root true patterns = .ok g ↔
        Opens w.env w.tree root ∧
          ∀ p, IsServed w.env w.tree root patterns p → IsAdmitted w.env t p) := by
  have heq : (Opens w.env w.tree root ∧
      ∀ p, IsServed w.env w.tree root patterns p → IsAdmitted w.env t p) →
      outcome w.env w.tree root true patterns = outcome w.env t root false patterns :=
    fun hcache => outcome_eq_of_admitted h.kept hcache.1 hplain htelling hsame hcache.2
  refine ⟨heq, fun g hfresh => ⟨fun hcached => ?_, fun hcache => ?_⟩⟩
  · exact ⟨opens_of_outcome_eq_ok hcached, fun p hserved =>
      admitted_of_outcome_eq h.kept hplain htelling hsame hcached hfresh hserved⟩
  · rw [heq hcache, hfresh]

/-! ## A file that has become too large -/

namespace LoneClass

/-- The project: the topmost directory. -/
def home : PathName := ⟨"/", []⟩

/-- Its only source. -/
def file : PathName := ⟨"/", ["a.rb"]⟩

/-- What finds it. -/
def pattern : List String := ["a.rb"]

theorem text_file : file.text = "/a.rb" := rfl

/-- The tree of a source that opens the class `A` and closes it. -/
def source : ConcreteNode where
  type := "program"
  endRow := 2
  children :=
    [{ type := "class", endRow := 1, children :=
        [{ type := "constant", field := some "name", bytes := [65] }] }]

/-- What is found in it. -/
def result : WalkResult := ⟨[⟨["A"], .ofClass, "/a.rb", 1, 2⟩], []⟩

/-- The class is found in the source. -/
theorem finds_source : FileAnalysis.Finds "/a.rb" .none source result :=
  FileAnalysis.finds_of_result (by decide +kernel) (by decide +kernel) (by decide +kernel)

theorem isStorable_result : result.values.isStorable := by
  refine WalkResult.IsShort.isStorable ⟨fun d hd => ?_, fun r hr => absurd hr List.not_mem_nil⟩
  rw [List.mem_singleton.1 hd]
  exact ⟨isOverlong_eq_false (by decide), isOverlong_eq_false (by decide)⟩

/-- A project with this source, and with some entries in the directory of its
cache. -/
def project (inside : List (String × FileEntry)) (changed : Moment) (clock : Nat) : FileTree :=
  ⟨.directory [("a.rb", .file (.source "class A\nend\n" source) 0 (.tick 0)),
    (".rubymap_cache", .directory inside changed)] (.tick 0), clock⟩

/-- The key of the source. -/
def key : CacheKey := ⟨.tick 0, 12, "1.0.0:infer_types=0"⟩

section Project

variable (inside : List (String × FileEntry)) (changed : Moment) (clock : Nat)

theorem find_project (follow : Bool) :
    (project inside changed clock).find follow file =
      .ok (.file (.source "class A\nend\n" source) 0 (.tick 0)) :=
  FileTree.find_of_entryAt (by decide) rfl (by simp) follow

theorem ask_home (holds : FileEntry → Bool) :
    (project inside changed clock).ask true holds home =
      .ok (holds (project inside changed clock).top) :=
  FileTree.ask_of_entryAt (by decide) rfl (by simp [project]) true holds

theorem cacheKey?_project :
    (project inside changed clock).cacheKey? "1.0.0:infer_types=0" file = .ok (some key) := by
  rw [FileTree.cacheKey?, find_project]
  rfl

theorem discover_project :
    discover (project inside changed clock) home ".rubymap_cache" pattern = .ok [file] := by
  have hroot : (project inside changed clock).isFile home = .ok false := ask_home _ _ _ _
  have hdir : (project inside changed clock).isDirectory home = .ok true := ask_home _ _ _ _
  have hparts : PathName.ofString "a.rb" = ⟨"", ["a.rb"]⟩ := rfl
  have hglob : Glob.ofString "a.rb" = .ok ⟨[.exact "a.rb"], false⟩ := by
    rw [Glob.ofString, hparts]
    rfl
  have hthere : (project inside changed clock).pathExists (home.child "a.rb") = .ok true :=
    FileTree.ask_of_entryAt (by decide) rfl (by simp) true _
  have hpaths : Glob.paths ⟨[.exact "a.rb"], false⟩ (project inside changed clock) home =
      .ok [file] := by
    rw [Glob.paths, hdir]
    simp only [bind, Except.bind, Glob.select, hthere]
    rfl
  have hruby : file.isRuby = true := rfl
  have heligible : isEligible home ".rubymap_cache" file = true := by
    rw [isEligible, hruby]
    decide
  have hsearch : search (project inside changed clock) home pattern = .ok [file] := by
    simp [pattern, search, hglob, hpaths, Except.map]
  rw [discover, hroot]
  simp [pattern] at hsearch
  simp [pattern, hsearch, Except.map, heligible, sortPaths, insertPath]

/-- The cache of the project, open. -/
def cache (tables : CacheTables) : AnalysisCache where
  place := [".rubymap_cache", "analysis.db"]
  number := 1
  tables := tables
  fingerprint := "1.0.0:infer_types=0"

/-- The cache opens where its directory stands. -/
theorem run_openCache_project {env : Environment} {t : FileTree} {tables : CacheTables}
    (hpath : env.cachePath = ".rubymap_cache") (hinfers : env.infersTypes = false)
    (hlink : ∀ target, inside.lookup "analysis.db" ≠ some (.link target))
    (htables : (project inside changed clock).openTables [".rubymap_cache", "analysis.db"]
      "1.0.0:infer_types=0" = (t, .ok (cache tables))) :
    (openCache env home true).run.run { tree := project inside changed clock } =
      (.ok (some (cache tables)), { tree := t }) := by
  have hhome : (project inside changed clock).isDirectory home = .ok true := ask_home _ _ _ _
  have hprint : env.cacheFingerprint = "1.0.0:infer_types=0" := by
    rw [Environment.cacheFingerprint, hinfers]
    rfl
  have hdir : home.join (.ofString ".rubymap_cache") = ⟨"/", [".rubymap_cache"]⟩ := rfl
  have hopen : AnalysisCache.openIn (project inside changed clock) home ".rubymap_cache"
      "1.0.0:infer_types=0" = (t, .ok (cache tables)) := by
    rw [AnalysisCache.openIn_of_entryAt hdir (by decide) rfl hlink (by decide)]
    exact htables
  rw [run_openCache_true, hhome, hpath, hprint]
  dsimp only
  rw [hopen]
  rfl

/-- A build of the project deals with its only source. -/
theorem left_project {env : Environment} {t : FileTree} {limit : SizeLimit} {c : AnalysisCache}
    (hpath : env.cachePath = ".rubymap_cache") (hlimit : limitOf env = .ok limit)
    (hopen : (openCache env home true).run.run { tree := t } =
      (.ok (some c), { tree := project inside changed clock })) :
    left env t home pattern = ((process ⟨limit, env.inference⟩ (some c) file).run.run
      { tree := project inside changed clock }).2.tree := by
  have hopened : opened env t home = { tree := project inside changed clock } :=
    congrArg Prod.snd hopen
  rw [left_of_limitOf_eq_ok hlimit, hopen, hopened, hpath, discover_project]
  dsimp only
  rw [run_processAll_cons]
  rcases (process ⟨limit, env.inference⟩ (some c) file).run.run
    { tree := project inside changed clock } with ⟨e | ⟨found, cache⟩, s⟩ <;> rfl

end Project

/-- The project before it was built. -/
def unbuilt : FileTree := project [] (.tick 0) 1

theorem proper_unbuilt : unbuilt.top.Proper := by
  refine .directory (by decide) fun x hx => ?_
  simp only [List.mem_cons, List.not_mem_nil, or_false] at hx
  rcases hx with rfl | rfl
  · exact .file
  · exact .directory List.nodup_nil fun _ hx => by cases hx

theorem not_holds_unbuilt (tables : CacheTables) : ¬ unbuilt.top.Holds tables := by
  intro h
  cases h with
  | directory hx hheld =>
    simp only [List.mem_cons, List.not_mem_nil, or_false] at hx
    rcases hx with rfl | rfl
    · cases hheld
    · cases hheld with
      | directory hx _ => cases hx

/-- The project with a cache. -/
def withCache (tables : CacheTables) (clock : Nat) : FileTree :=
  project [("analysis.db", .file (.tables tables) 1 (.tick clock))] (.tick (clock + 1)) (clock + 2)

theorem inStep_withCache (tables : CacheTables) (clock : Nat) :
    (cache tables).InStep (withCache tables clock) :=
  ⟨rfl, ⟨_, rfl⟩, rfl⟩

theorem limitOf_standard : limitOf {} = .ok .standard := rfl

theorem openCache_unbuilt : (openCache {} home true).run.run { tree := unbuilt } =
    (.ok (some (cache {})), { tree := withCache {} 2 }) :=
  run_openCache_project _ _ _ rfl rfl (by simp) rfl

/-- The tables with the source in them. -/
def filled : CacheTables := ({} : CacheTables).insert "/a.rb" key result.values

theorem get?_filled : filled.get? "/a.rb" key = .ok (some result.values) := by
  have hcurrent : filled.isCurrent "/a.rb" key = true := by decide
  have hrow : filled.row? "/a.rb" = some (.ofResult "/a.rb" key result.values) := rfl
  rw [CacheTables.get?, if_pos hcurrent, hrow]
  exact ResultRow.result?_ofResult "/a.rb" key isStorable_result

/-- The project after it was built. -/
def built : FileTree := withCache filled 4

/-- The first build fills the cache. -/
theorem left_unbuilt : left {} unbuilt home pattern = built := by
  have hfind := find_project [("analysis.db", .file (.tables {}) 1 (.tick 2))] (.tick 3) 4
  have hinference : ({} : Environment).inference = .none := rfl
  have hget : (cache {}).get? (withCache {} 2) file = .ok none := by
    have hkey : (withCache {} 2).cacheKey? (cache {}).fingerprint file = .ok (some key) :=
      cacheKey?_project _ _ _
    rw [(inStep_withCache {} 2).get?, hkey]
    rfl
  have hadmits : (withCache {} 2).admits .standard file = true := by
    rw [FileTree.admits, withCache, hfind]
    rfl
  have hset : (cache {}).set (withCache {} 2) file result.values =
      ((cache filled, built), .ok ()) := by
    rw [(inStep_withCache {} 2).set (hfind true), isStorable_result, text_file]
    rfl
  have hanalysis : analysis ⟨.standard, .none⟩ (withCache {} 2) file =
      .ok (FileAnalysis.keep { file := file.text } result) := by
    refine analysis_of_finds (hfind false) hadmits ?_
    rw [text_file]
    exact finds_source
  rw [left_project _ _ _ rfl limitOf_standard openCache_unbuilt, hinference]
  exact ((turn_process _ _ _ _).unique (.stored hget hanalysis rfl hset)).2

/-- The cache has the source. -/
theorem get?_built : (cache filled).get? built file = .ok (some result.values) := by
  have hkey : built.cacheKey? (cache filled).fingerprint file = .ok (some key) :=
    cacheKey?_project _ _ _
  have hget : (cache filled).tables.get? "/a.rb" key = .ok (some result.values) := get?_filled
  have hstep : (cache filled).InStep built := inStep_withCache filled 4
  rw [hstep.get?, hkey, text_file]
  dsimp only
  rw [hget]
  rfl

/-- The size of a file of the project tells whether it is the source or the
file of the cache. -/
theorem tree_of_find {p : PathName} {follow : Bool} {content : FileContent} {number : Nat}
    {changed : Moment} (h : built.find follow p = .ok (.file content number changed)) :
    content.tree = if content.size = 12 then source else { type := "program" } := by
  obtain ⟨place, hplace⟩ := FileTree.exists_entryAt_of_find h
  cases place with
  | nil => cases hplace
  | cons name rest =>
    rw [FileTree.entryAt, FileEntry.descend_cons] at hplace
    obtain ⟨x, hx, hrest⟩ := Option.bind_eq_some_iff.1 hplace
    have hmem := FileEntry.mem_of_lookup_eq_some hx
    simp only [built, withCache, project, FileEntry.entries, List.mem_cons, Prod.mk.injEq,
      List.not_mem_nil, or_false] at hmem
    rcases hmem with ⟨-, rfl⟩ | ⟨-, rfl⟩
    · cases (FileEntry.eq_of_descend_eq_some rfl hrest).2
      rfl
    · cases rest with
      | nil => cases hrest
      | cons name rest =>
        rw [FileEntry.descend_cons] at hrest
        obtain ⟨x, hx, hrest⟩ := Option.bind_eq_some_iff.1 hrest
        have hmem := FileEntry.mem_of_lookup_eq_some hx
        simp only [FileEntry.entries, List.mem_cons, Prod.mk.injEq, List.not_mem_nil,
          or_false] at hmem
        obtain ⟨-, rfl⟩ := hmem
        cases (FileEntry.eq_of_descend_eq_some rfl hrest).2
        rfl

theorem telling_built : Telling built [built] := by
  have htree : ∀ trees, (∀ t ∈ trees, t = built) → ∀ file stamp size node,
      seenIn trees file stamp size node →
        node = if size = 12 then source else { type := "program" } := by
    rintro trees htrees file stamp size node
      ⟨t, ht, p, content, number, changed, hfind, -, -, rfl, rfl⟩
    obtain rfl := htrees t ht
    exact tree_of_find hfind
  intro file stamp size node node' h h'
  rw [htree _ (by simp) _ _ _ _ h, htree _ (by simp) _ _ _ _ h']

theorem isSource_built {env : Environment} {p : PathName} (h : IsSource env built home pattern p)
    (hpath : env.cachePath = ".rubymap_cache") : p = file := by
  obtain ⟨files, hfiles, hp⟩ := h
  rw [hpath, built, withCache, discover_project] at hfiles
  cases hfiles
  simpa using hp

theorem isApart_built : IsApart built file := by
  intro content number changed hfind tables hcontent
  rw [built, withCache, find_project] at hfind
  cases hfind
  cases hcontent

/-- Settings that admit no file of more than five bytes. -/
def fiveBytes : Environment := ⟨[("RUBYMAP_FILE_SIZE_LIMIT", "5")]⟩

theorem limitOf_fiveBytes : limitOf fiveBytes = .ok ⟨5, by decide⟩ := rfl

/-- The project is built, and then the limit is lowered. -/
theorem reaches_built : Reaches [built] ⟨built, fiveBytes⟩ := by
  have hstart : Reaches [] ⟨unbuilt, {}⟩ := .start proper_unbuilt not_holds_unbuilt
  have hbuild := @Reaches.build [] ⟨unbuilt, {}⟩ home pattern hstart
  dsimp only at hbuild
  rw [left_unbuilt] at hbuild
  refine @Reaches.configure [built] ⟨built, {}⟩ fiveBytes (hbuild fun p hp => ?_)
  rw [isSource_built hp rfl]
  exact isApart_built

theorem not_admits_built : built.admits ⟨5, by decide⟩ file = false := by
  rw [FileTree.admits, built, withCache, find_project]
  rfl

/-- The source is plain. -/
theorem plain_built {p : PathName} (h : IsSource fiveBytes built home pattern p) :
    Plain fiveBytes built p := by
  obtain rfl := isSource_built h rfl
  refine ⟨by simp [text_file], isApart_built, fun limit found hlimit hfound => ?_⟩
  cases limitOf_fiveBytes.symm.trans hlimit
  rw [examine, analysis_of_not_admits not_admits_built] at hfound
  cases hfound
  rfl

theorem openCache_built : (openCache fiveBytes home true).run.run { tree := built } =
    (.ok (some (cache filled)), { tree := built }) :=
  run_openCache_project _ _ _ rfl rfl (by simp) rfl

theorem isServed_built : IsServed fiveBytes built home pattern file := by
  have hopened : opened fiveBytes built home = { tree := built } :=
    congrArg Prod.snd openCache_built
  refine ⟨_, cache filled, [file], limitOf_fiveBytes, congrArg Prod.fst openCache_built, ?_, ?_⟩
  · rw [hopened]
    exact discover_project _ _ _
  · rw [hopened]
    exact .here get?_built

/-- The second build leaves everything as it is. -/
theorem left_built : left fiveBytes built home pattern = built := by
  have hleft := left_project _ _ _ rfl limitOf_fiveBytes openCache_built
  rw [hleft]
  exact ((turn_process _ _ _ _).unique (.served get?_built)).2

/-- What is put together from the only source. -/
theorem exists_conclude {r : WalkResult Json Json} {skipped : Bool}
    (h : (conclude fiveBytes [file] [⟨file, r, skipped⟩]).isOk = true) :
    ∃ g, conclude fiveBytes [file] [⟨file, r, skipped⟩] = .ok g ∧
      g.store = .ofList r.definitions ∧ g.skipped = if skipped then ["/a.rb"] else [] := by
  obtain ⟨flags, hconclude⟩ := exists_flags_of_isOk h
  refine ⟨_, hconclude, ?_, ?_⟩
  · simp
  · cases skipped <;> simp [text_file]

theorem outcome_cached_built : outcome fiveBytes built home true pattern =
    conclude fiveBytes [file] [⟨file, result.values, false⟩] := by
  have hopened : opened fiveBytes built home = { tree := built } :=
    congrArg Prod.snd openCache_built
  have hfiles : discover built home fiveBytes.cachePath pattern = .ok [file] :=
    discover_project _ _ _
  have hturn := (turn_process ⟨⟨5, by decide⟩, fiveBytes.inference⟩ (cache filled) file
    { tree := built }).unique (.served get?_built)
  rw [outcome_cached (congrArg Prod.fst openCache_built), limitOf_fiveBytes, hopened]
  dsimp only [Except.bind]
  rw [hfiles]
  dsimp only
  rw [run_processAll_cons]
  rcases hrun : (process ⟨⟨5, by decide⟩, fiveBytes.inference⟩ (some (cache filled)) file).run.run
    { tree := built } with ⟨found, s⟩
  rw [hrun] at hturn
  obtain rfl := hturn.1
  rfl

theorem outcome_fresh_built : outcome fiveBytes built home false pattern =
    conclude fiveBytes [file] [⟨file, (WalkResult.empty : WalkResult).values, true⟩] := by
  have hfiles : discover built home fiveBytes.cachePath pattern = .ok [file] :=
    discover_project _ _ _
  have hexamine : examine ⟨⟨5, by decide⟩, fiveBytes.inference⟩ built file =
      .ok ⟨file, (WalkResult.empty : WalkResult).values, true⟩ := by
    rw [examine, analysis_of_not_admits not_admits_built]
    rfl
  rw [outcome_fresh, limitOf_fiveBytes]
  dsimp only [Except.bind]
  rw [hfiles]
  dsimp only
  rw [List.mapM_cons, hexamine]
  rfl

end LoneClass

open LoneClass in
/-- The hypotheses hold of a project whose limit was lowered after a build. -/
theorem outcome_eq_fresh_iff_of_lowered_limit :
    Reaches [built] ⟨built, fiveBytes⟩ ∧ Telling (left fiveBytes built home pattern) [built] ∧
      IsServed fiveBytes built home pattern file ∧
      ((Opens fiveBytes built home ∧
          ∀ p, IsServed fiveBytes built home pattern p → IsAdmitted fiveBytes built p) →
        outcome fiveBytes built home true pattern = outcome fiveBytes built home false pattern) ∧
      ∀ g, outcome fiveBytes built home false pattern = .ok g →
        (outcome fiveBytes built home true pattern = .ok g ↔ Opens fiveBytes built home ∧
          ∀ p, IsServed fiveBytes built home pattern p → IsAdmitted fiveBytes built p) := by
  have htelling : Telling (left fiveBytes built home pattern) [built] := by
    rw [left_built]
    exact telling_built
  refine ⟨reaches_built, htelling, isServed_built, ?_⟩
  refine outcome_eq_fresh_iff_served_admitted (w := ⟨built, fiveBytes⟩) reaches_built
    (fun p hp => ?_) htelling ?_
  · dsimp only at hp ⊢
    rw [left_built] at hp ⊢
    exact plain_built hp
  · dsimp only
    rw [left_built]
    exact rfl

open LoneClass in
/-- **A file that has become too large is served all the same.** The project
is built, and the limit is lowered below the size of its only source:
another build does not skip it and has its class, though one without a
cache skips it and has nothing. -/
theorem served_beyond_limit :
    Reaches [built] ⟨built, fiveBytes⟩ ∧ Telling (left fiveBytes built home pattern) [built] ∧
      (∃ g, outcome fiveBytes built home true pattern = .ok g ∧
        g.store = .ofList result.values.definitions ∧ g.skipped = []) ∧
      ∃ g, outcome fiveBytes built home false pattern = .ok g ∧
        g.store = .ofList [] ∧ g.skipped = ["/a.rb"] := by
  refine ⟨reaches_built, ?_, ?_, ?_⟩
  · rw [left_built]
    exact telling_built
  · rw [outcome_cached_built]
    exact exists_conclude (by decide +kernel)
  · rw [outcome_fresh_built]
    exact exists_conclude (by decide +kernel)

end Project

end ConstGraph
