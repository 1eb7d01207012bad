import ConstGraph.Proofs.CachedRun

/-!
# Builds and what they leave

A build goes through stages (`run_build`): the settings are read, the
cache is opened, the sources are found and analysed, and the graph is put
together. `outcome_fresh` and `outcome_cached` say what it gives without a
cache and with one that opens.

Whatever becomes of a build with a cache, it leaves the files as they are
once its cache has been opened (`sameFiles_left`), and no cache in them
holds anything but what is found in trees that have been seen
(`kept_left`).
-/

namespace ConstGraph

namespace Project

variable {env : Environment} {t t' : FileTree} {root : PathName} {patterns : List String}

/-! ## A build in stages -/

/-- The size limit that is set. -/
def limitOf (env : Environment) : Except Failure SizeLimit :=
  (env.fileSizeLimit.mapError .settings).bind fun bytes => (SizeLimit.ofInt bytes).mapError .limit

/-- What is made of the contributions of all files. -/
def conclude (env : Environment) (files : List PathName) (found : List Contribution) :
    Except Failure (DependencyGraph Json Json) :=
  ((CyclePolicy.ofName env.cyclePolicy).mapError .policy).bind fun policy =>
    (DependencyGraph.assembleValues policy (found.map (·.result)) (files.map (·.text))
      ((found.filter (·.skipped)).map (·.path.text))).mapError assemblyFailure

/-- The stages of a build: the settings are read, the cache is opened, the
sources are found and analysed, and the graph is put together. -/
theorem run_build (env : Environment) (root : PathName) (useCache : Bool) (patterns : List String)
    (s : Session) :
    (build env root useCache patterns).run.run s =
      match limitOf env with
      | .error e => (.error e, s)
      | .ok limit =>
        match (openCache env root useCache).run.run s with
        | (.error e, s) => (.error e, s)
        | (.ok cache, s) =>
          match discover s.tree root env.cachePath patterns with
          | .error e => (.error e, s)
          | .ok files =>
            match (processAll ⟨limit, env.inference⟩ cache files).run.run s with
            | (.error e, s) => (.error e, s)
            | (.ok found, s) =>
              match conclude env files found with
              | .error e => (.error e, s)
              | .ok g => (.ok (g, cache.isSome), { s with log := s.log ++ [g.record] }) := by
  unfold build limitOf
  rw [run_bind, run_lift]
  cases env.fileSizeLimit with
  | error e => rfl
  | ok bytes =>
    dsimp only [Except.mapError, Except.bind]
    rw [run_bind, run_lift]
    cases SizeLimit.ofInt bytes with
    | error e => rfl
    | ok limit =>
      dsimp only [Except.mapError]
      rw [run_bind]
      -- from here on the session is the one the opened cache leaves
      rcases (openCache env root useCache).run.run s with ⟨e | cache, s₁⟩
      · rfl
      dsimp only
      rw [run_bind, run_tree]
      dsimp only
      rw [run_bind, run_lift]
      cases discover s₁.tree root env.cachePath patterns with
      | error e => rfl
      | ok files =>
        dsimp only [Except.mapError]
        rw [run_bind]
        rcases (processAll ⟨limit, env.inference⟩ cache files).run.run s₁ with ⟨e | found, s₂⟩
        · rfl
        dsimp only
        rw [run_bind, run_lift, conclude]
        cases CyclePolicy.ofName env.cyclePolicy with
        | error e => rfl
        | ok policy =>
          dsimp only [Except.mapError, Except.bind]
          rw [run_bind, run_lift]
          cases DependencyGraph.assembleValues policy (found.map (·.result)) (files.map (·.text))
            ((found.filter (·.skipped)).map (·.path.text)) <;> rfl

/-- What a build gives. -/
def outcome (env : Environment) (t : FileTree) (root : PathName) (useCache : Bool)
    (patterns : List String) : Except Failure (DependencyGraph Json Json) :=
  ((build env root useCache patterns).run.run { tree := t }).1.map Prod.fst

/-- The files a build with a cache leaves. -/
def left (env : Environment) (t : FileTree) (root : PathName) (patterns : List String) : FileTree :=
  ((build env root true patterns).run.run { tree := t }).2.tree

/-- **What a build without a cache gives.** -/
theorem outcome_fresh (env : Environment) (t : FileTree) (root : PathName)
    (patterns : List String) :
    outcome env t root false patterns =
      (limitOf env).bind fun limit => (discover t root env.cachePath patterns).bind fun files =>
        (files.mapM (examine ⟨limit, env.inference⟩ t)).bind (conclude env files) := by
  have hopen : (openCache env root false).run.run { tree := t } = (.ok none, { tree := t }) := rfl
  unfold outcome
  rw [run_build, hopen]
  cases limitOf env with
  | error e => rfl
  | ok limit =>
    dsimp only [Except.bind]
    cases discover t root env.cachePath patterns with
    | error e => rfl
    | ok files =>
      obtain ⟨log, hrun⟩ := run_processAll_none ⟨limit, env.inference⟩ files { tree := t }
      dsimp only
      rw [hrun]
      dsimp only
      cases files.mapM (examine ⟨limit, env.inference⟩ t) with
      | error e => rfl
      | ok found =>
        dsimp only
        cases conclude env files found <;> rfl

/-- Without a cache, trees with the same files give the same. -/
theorem outcome_fresh_congr (h : t.SameFiles t') (env : Environment) (root : PathName)
    (patterns : List String) :
    outcome env t root false patterns = outcome env t' root false patterns := by
  have hexamine : ∀ o, examine o t = examine o t' := fun o => funext (examine_congr h o)
  rw [outcome_fresh, outcome_fresh]
  simp only [h.discover, hexamine]

/-- The session in which the cache of a project has been opened. -/
def opened (env : Environment) (t : FileTree) (root : PathName) : Session :=
  ((openCache env root true).run.run { tree := t }).2

/-- What a build gives whose cache opens. -/
theorem outcome_cached {cache : Option AnalysisCache}
    (hopen : ((openCache env root true).run.run { tree := t }).1 = .ok cache)
    (patterns : List String) :
    outcome env t root true patterns =
      (limitOf env).bind fun limit =>
        (discover (opened env t root).tree root env.cachePath patterns).bind fun files =>
          ((processAll ⟨limit, env.inference⟩ cache files).run.run (opened env t root)).1.bind
            (conclude env files) := by
  have hrun : (openCache env root true).run.run { tree := t } = (.ok cache, opened env t root) :=
    Prod.ext hopen rfl
  unfold outcome
  rw [run_build, hrun]
  cases limitOf env with
  | error e => rfl
  | ok limit =>
    dsimp only [Except.bind]
    cases discover (opened env t root).tree root env.cachePath patterns with
    | error e => rfl
    | ok files =>
      dsimp only
      rcases (processAll ⟨limit, env.inference⟩ cache files).run.run (opened env t root) with
        ⟨e | found, s⟩
      · rfl
      · dsimp only
        cases conclude env files found <;> rfl

/-- A graph that is put together holds what the files contribute, and names
them and those that were skipped. -/
theorem exists_flags_of_conclude {files : List PathName} {found : List Contribution}
    {g : DependencyGraph Json Json} (h : conclude env files found = .ok g) :
    ∃ flags, g = ⟨.ofList ((found.map (·.result)).flatMap (·.definitions)),
      (found.map (·.result)).flatMap (·.relations), flags, files.map (·.text),
      (found.filter (·.skipped)).map (·.path.text)⟩ := by
  unfold conclude at h
  cases hpolicy : CyclePolicy.ofName env.cyclePolicy with
  | error e =>
    rw [hpolicy] at h
    cases h
  | ok policy =>
    rw [hpolicy] at h
    dsimp only [Except.mapError, Except.bind] at h
    unfold DependencyGraph.assembleValues DependencyGraph.assemble at h
    dsimp only at h
    split at h
    · cases h
    · next hgraph =>
      cases h
      split at hgraph
      · rcases hflags : CircularFlags.ofRelations policy
          ((found.map (·.result)).flatMap (·.relations))
          (.ofList ((found.map (·.result)).flatMap (·.definitions))) with e | flags
        · rw [hflags] at hgraph
          cases hgraph
        · rw [hflags] at hgraph
          cases hgraph
          exact ⟨flags, rfl⟩
      · cases hgraph

theorem exists_flags_of_isOk {files : List PathName} {found : List Contribution}
    (h : (conclude env files found).isOk = true) :
    ∃ flags, conclude env files found =
      .ok ⟨.ofList ((found.map (·.result)).flatMap (·.definitions)),
        (found.map (·.result)).flatMap (·.relations), flags, files.map (·.text),
        (found.filter (·.skipped)).map (·.path.text)⟩ := by
  rcases hconclude : conclude env files found with e | g
  · rw [hconclude] at h
    cases h
  · obtain ⟨flags, rfl⟩ := exists_flags_of_conclude hconclude
    exact ⟨flags, rfl⟩

/-- The graph names the files that were skipped. -/
theorem skipped_of_conclude {files : List PathName} {found : List Contribution}
    {g : DependencyGraph Json Json} (h : conclude env files found = .ok g) :
    g.skipped = (found.filter (·.skipped)).map (·.path.text) := by
  obtain ⟨flags, rfl⟩ := exists_flags_of_conclude h
  rfl

/-! ## Opening the cache -/

/-- What opening the cache of a project leaves: a proper tree without new
tables but empty ones and, if there is a cache, one that is in step. -/
structure Starts (env : Environment) (t t' : FileTree)
    (outcome : Except Failure (Option AnalysisCache)) : Prop where
  /-- No name stands twice. -/
  proper : t'.top.Proper
  /-- No new tables are held but empty ones. -/
  held : ∀ tables, t'.top.Holds tables → t.top.Holds tables ∨ tables = {}
  /-- The cache is in step with its file. -/
  inStep : ∀ c, outcome = .ok (some c) → c.fingerprint = env.cacheFingerprint ∧ c.InStep t'

theorem run_openCache (root : PathName) (directory fingerprint : String) (s : Session) :
    (Job.openCache root directory fingerprint).run.run s =
      ((AnalysisCache.openIn s.tree root directory fingerprint).2.mapError .cache,
        { s with tree := (AnalysisCache.openIn s.tree root directory fingerprint).1 }) := by
  unfold Job.openCache
  rw [run_bind, run_tree]
  dsimp only
  rcases AnalysisCache.openIn s.tree root directory fingerprint with ⟨t', e | c⟩ <;> rfl

/-- A cache is opened if the project is a directory. -/
theorem run_openCache_true (env : Environment) (root : PathName) (s : Session) :
    (openCache env root true).run.run s =
      match s.tree.isDirectory root with
      | .error e => (.error (.file e), s)
      | .ok false => (.ok none, s)
      | .ok true =>
        let opening := AnalysisCache.openIn s.tree root env.cachePath env.cacheFingerprint
        ((opening.2.mapError .cache).map some, { s with tree := opening.1 }) := by
  unfold openCache
  simp only [Bool.not_true, Bool.false_eq_true, if_false, run_bind, run_tree, run_lift]
  cases s.tree.isDirectory root with
  | error e => rfl
  | ok isDirectory =>
    cases isDirectory with
    | false => rfl
    | true =>
      simp only [Except.mapError, Bool.not_true, Bool.false_eq_true, if_false, run_bind,
        run_openCache]
      rcases AnalysisCache.openIn s.tree root env.cachePath env.cacheFingerprint with
        ⟨t', e | c⟩ <;> rfl

theorem starts_openCache (h : t.top.Proper) (env : Environment) (root : PathName) :
    Starts env t ((openCache env root true).run.run { tree := t }).2.tree
      ((openCache env root true).run.run { tree := t }).1 := by
  have hunchanged : ∀ outcome, (∀ c, outcome ≠ .ok (some c)) → Starts env t t outcome :=
    fun outcome hnone => ⟨h, fun _ => Or.inl, fun c hc => absurd hc (hnone c)⟩
  rw [run_openCache_true]
  cases t.isDirectory root with
  | error e => exact hunchanged _ nofun
  | ok isDirectory =>
    cases isDirectory with
    | false => exact hunchanged _ nofun
    | true =>
      have hopened := AnalysisCache.openIn_opened h root env.cachePath env.cacheFingerprint
      dsimp only
      rcases hrun : AnalysisCache.openIn t root env.cachePath env.cacheFingerprint with ⟨t', e | c⟩
      all_goals rw [hrun] at hopened
      · exact ⟨hopened.proper, hopened.held, nofun⟩
      · refine ⟨hopened.proper, hopened.held, ?_⟩
        rintro c' ⟨⟩
        exact hopened.inStep c rfl

/-! ## What has been seen -/

/-- What can be seen in some trees. -/
def seenIn (trees : List FileTree) : CacheTables.Sighting := fun file stamp size node =>
  ∃ t ∈ trees, ∃ p content number changed, t.find false p = .ok (.file content number changed) ∧
    p.text = file ∧ changed.stamp = stamp ∧ content.size = size ∧ content.tree = node

/-- A file of a tree that has the time and size it had in an earlier tree has
the content it had there, as far as times are compared. This is more than
that an edit changes the time or the size: it is asked of every earlier
tree, though only the row stored last for a file can be served, and two
times that differ can be the same once they are rounded. -/
def Telling (t : FileTree) (past : List FileTree) : Prop :=
  ∀ file stamp size node node', seenIn (t :: past) file stamp size node →
    seenIn [t] file stamp size node' → node = node'

/-- What stands at a path is not the file of a cache. -/
def IsApart (t : FileTree) (p : PathName) : Prop :=
  ∀ content number changed, t.find false p = .ok (.file content number changed) →
    ∀ tables, content ≠ .tables tables

theorem isApart_congr (h : t.SameFiles t') {p : PathName} (hp : IsApart t' p) : IsApart t p := by
  intro content number changed hfind tables hcontent
  subst hcontent
  have hbare : (t'.find false p).map FileEntry.bare =
      .ok (.file (.tables {}) number (.tick 0)) := by
    rw [← FileTree.find_bare, ← h, FileTree.find_bare, hfind]
    rfl
  rcases hfound : t'.find false p with e | e
  · rw [hfound] at hbare
    cases hbare
  · rw [hfound] at hbare
    replace hbare : e.bare = .file (.tables {}) number (.tick 0) := Except.ok.inj hbare
    cases e with
    | file content' number' changed' =>
      cases content' with
      | tables tables' => exact hp _ _ _ hfound tables' rfl
      | _ => cases hbare
    | _ => cases hbare

theorem seenIn_cons {trees : List FileTree} {file : String} {stamp : Stamp} {size : Nat}
    {node : ConcreteNode} (h : seenIn trees file stamp size node) :
    seenIn (t :: trees) file stamp size node := by
  obtain ⟨t', ht', h⟩ := h
  exact ⟨t', List.mem_cons_of_mem t ht', h⟩

theorem shows_seenIn {trees : List FileTree} {p : PathName} (h : t'.SameFiles t)
    (hp : IsApart t p) : Shows (seenIn (t :: trees)) t' p := by
  intro content number changed hfind
  have hcontent := isApart_congr h hp content number changed hfind
  exact ⟨t, List.mem_cons_self, p, content, number, changed, h.find hcontent hfind, rfl, rfl, rfl,
    rfl⟩

theorem tells_seenIn {trees : List FileTree} {p : PathName} (h : t'.SameFiles t)
    (hp : IsApart t p) (htelling : Telling t trees) : Tells (seenIn (t :: trees)) t' p := by
  intro content number changed node hfind hseen
  exact htelling _ _ _ _ _ hseen (shows_seenIn h hp content number changed hfind)

/-! ## What a build leaves -/

/-- If the settings are refused, nothing changes. -/
theorem left_of_limitOf_eq_error {e : Failure} (h : limitOf env = .error e) (t : FileTree)
    (root : PathName) (patterns : List String) : left env t root patterns = t := by
  rw [left, run_build, h]

/-- Otherwise the cache is opened and, if that succeeds and the sources are
found, they are analysed. -/
theorem left_of_limitOf_eq_ok {limit : SizeLimit} (h : limitOf env = .ok limit) (t : FileTree)
    (root : PathName) (patterns : List String) :
    left env t root patterns =
      match ((openCache env root true).run.run { tree := t }).1,
        discover (opened env t root).tree root env.cachePath patterns with
      | .ok cache, .ok files =>
        ((processAll ⟨limit, env.inference⟩ cache files).run.run (opened env t root)).2.tree
      | _, _ => (opened env t root).tree := by
  unfold left opened
  rw [run_build, h]
  dsimp only
  rcases (openCache env root true).run.run { tree := t } with ⟨e | cache, s⟩
  · rfl
  dsimp only
  cases discover s.tree root env.cachePath patterns with
  | error e => rfl
  | ok files =>
    dsimp only
    rcases (processAll ⟨limit, env.inference⟩ cache files).run.run s with ⟨e | found, s'⟩
    · rfl
    · dsimp only
      cases conclude env files found <;> rfl

variable {Seen : CacheTables.Sighting} {past : List FileTree}

theorem kept_opened (h : Kept Seen t t) (env : Environment) (root : PathName) :
    Kept Seen (opened env t root).tree (opened env t root).tree := by
  have hstarts := starts_openCache h.proper env root
  refine ⟨hstarts.proper, rfl, fun tables htables => ?_⟩
  rcases hstarts.held tables htables with hold | rfl
  · exact h.held tables hold
  · exact CacheTables.sound_empty

theorem ready_opened {c : AnalysisCache} (h : Kept Seen t t)
    (hopen : ((openCache env root true).run.run { tree := t }).1 = .ok (some c)) :
    Ready Seen env (opened env t root).tree (opened env t root).tree c := by
  obtain ⟨hsettings, hstep⟩ := (starts_openCache h.proper env root).inStep c hopen
  exact ⟨kept_opened h env root, hstep, hsettings⟩

/-- Files are analysed with the cache that has been opened, or without. -/
theorem kept_processAll_opened (limit : SizeLimit) {cache : Option AnalysisCache}
    {files : List PathName} (h : Kept Seen t t)
    (hopen : ((openCache env root true).run.run { tree := t }).1 = .ok cache)
    (hshows : ∀ p ∈ files, ∀ t' : FileTree, t'.SameFiles (opened env t root).tree →
      Shows Seen t' p) :
    Kept Seen (opened env t root).tree
      ((processAll ⟨limit, env.inference⟩ cache files).run.run (opened env t root)).2.tree := by
  cases cache with
  | none =>
    obtain ⟨log, hrun⟩ := run_processAll_none ⟨limit, env.inference⟩ files (opened env t root)
    rw [hrun]
    exact kept_opened h env root
  | some c =>
    have ho : (⟨limit, env.inference⟩ : Options).infer = env.inference := by dsimp only
    exact kept_processAll (ready_opened h hopen) ho hshows

/-- **A build leaves the files as they are once its cache has been opened.** -/
theorem sameFiles_left {limit : SizeLimit} (h : Kept Seen t t) (hlimit : limitOf env = .ok limit)
    (root : PathName) (patterns : List String) :
    (left env t root patterns).SameFiles (opened env t root).tree := by
  -- what has been seen does not matter here, so let it be everything
  have heverything : Kept (fun _ _ _ _ => True) t t := h.mono fun _ _ _ _ _ => trivial
  rw [left_of_limitOf_eq_ok hlimit]
  split
  · next cache files hopen hfiles =>
    exact (kept_processAll_opened limit heverything hopen fun _ _ _ _ _ _ _ _ => trivial).same
  · rfl

/-- A path is among the sources of a project. -/
def IsSource (env : Environment) (t : FileTree) (root : PathName) (patterns : List String)
    (p : PathName) : Prop :=
  ∃ files, discover t root env.cachePath patterns = .ok files ∧ p ∈ files

/-- **Whatever becomes of a build, its caches hold nothing but what is found
in trees that have been seen**, in the past or in the tree it leaves. -/
theorem kept_left (h : Kept (seenIn past) t t)
    (hapart : ∀ p, IsSource env (left env t root patterns) root patterns p →
      IsApart (left env t root patterns) p) :
    Kept (seenIn (left env t root patterns :: past)) (left env t root patterns)
      (left env t root patterns) := by
  have h' : Kept (seenIn (left env t root patterns :: past)) t t :=
    h.mono fun _ _ _ _ => seenIn_cons
  cases hlimit : limitOf env with
  | error e =>
    have hleft := left_of_limitOf_eq_error hlimit t root patterns
    rw [hleft] at h' ⊢
    exact h'
  | ok limit =>
    have hsame := sameFiles_left h hlimit root patterns
    have hkept : Kept (seenIn (left env t root patterns :: past)) (opened env t root).tree
        (left env t root patterns) := by
      have hleft := left_of_limitOf_eq_ok hlimit t root patterns
      split at hleft
      · next cache files hopen hfiles =>
        have hsource : ∀ p ∈ files, IsSource env (left env t root patterns) root patterns p :=
          fun p hp => ⟨files, (hsame.discover root env.cachePath patterns).trans hfiles, hp⟩
        have hrun := kept_processAll_opened limit h' hopen fun p hp t' ht' =>
          shows_seenIn (Eq.trans ht' hsame.symm) (hapart p (hsource p hp))
        rw [← hleft] at hrun
        exact hrun
      · have hopened := kept_opened h' env root
        rw [← hleft] at hopened ⊢
        exact hopened
    exact ⟨hkept.proper, rfl, hkept.held⟩

end Project

end ConstGraph
