import ConstGraph.Proofs.CacheTruth
import ConstGraph.Proofs.SameFiles

/-!
# Analysing files with a cache

`analysis` is what analysing a file gives, and a run without a cache gives
just this for one file after the other (`run_processAll_none`). With a
cache a file takes one of six `Turn`s.

A cache that is in step with its file, in a tree that holds sound tables
only, stays so from turn to turn (`kept_processAll`). Its answers are then
what the analysis would give for every file that is admitted
(`examine_of_served`), so a run that serves no other file from the cache
gives what a run without one does (`processAll_eq_mapM`). A file that is
not admitted and is served all the same is missing from the skipped ones
(`countP_skipped_lt`).
-/

namespace ConstGraph

/-- What is not skipped was found in the tree that was read. -/
theorem FileAnalysis.finds_of_parse {file : String} {infer : Inference} {source : Source}
    {a : FileAnalysis} {reason : Option SkipReason}
    (h : parse { file := file, infer := infer } source = (a, .ok reason))
    (hkept : a.skipped = false) :
    ∃ root, source = .tree root ∧ Finds file infer root a.result := by
  cases source with
  | inadmissible =>
    cases h
    cases hkept
  | tree root =>
    refine ⟨root, rfl, ?_⟩
    simp only [Finds, parse] at h ⊢
    cases hchecked : root.checked file with
    | error e =>
      simp only [hchecked] at h
      split at h
      · cases h
      · cases h
        cases hkept
    | ok checked =>
      simp only [hchecked] at h ⊢
      split at h
      · cases h
        rfl
      · cases h
        cases hkept
      · cases h

theorem FileAnalysis.finds_of_result {file : String} {infer : Inference} {root : ConcreteNode}
    {r : WalkResult}
    (hok : (parse { file := file, infer := infer } (.tree root)).2.isOk = true)
    (hkept : (parse { file := file, infer := infer } (.tree root)).1.skipped = false)
    (hresult : ((parse { file := file, infer := infer } (.tree root)).1.result == r) = true) :
    Finds file infer root r := by
  rcases hparse : parse { file := file, infer := infer } (.tree root) with ⟨a, e | reason⟩
  · rw [hparse] at hok
    cases hok
  · rw [hparse] at hkept hresult
    obtain ⟨_, ⟨⟩, hfinds⟩ := finds_of_parse hparse hkept
    rwa [eq_of_beq hresult] at hfinds

namespace Project

variable {o : Options} {p : PathName} {t t' : FileTree} {c : AnalysisCache}

/-! ## What a file gives -/

/-- What analysing a file gives. -/
def analysis (o : Options) (t : FileTree) (p : PathName) : Except Failure FileAnalysis :=
  match FileAnalysis.parse { file := p.text, infer := o.infer } (t.source o.limit p) with
  | (a, .ok _) => .ok a
  | (_, .error e) => .error (.analysis e)

/-- What a file contributes when it is analysed. -/
def examine (o : Options) (t : FileTree) (p : PathName) : Except Failure Contribution :=
  (analysis o t p).map fun a => ⟨p, a.result.values, a.skipped⟩

theorem run_tree (s : Session) : Job.tree.run.run s = (.ok s.tree, s) := rfl

theorem run_lift {ε α : Type} (cause : ε → Failure) (x : Except ε α) (s : Session) :
    (Job.lift cause x).run.run s = (x.mapError cause, s) := by
  cases x <;> rfl

/-- To analyse a file changes the log at most. -/
theorem run_analyze (o : Options) (p : PathName) (s : Session) :
    ∃ log, (analyze o p).run.run s = (analysis o s.tree p, { s with log := log }) := by
  unfold analyze analysis
  rw [run_bind, run_tree]
  dsimp only
  rcases FileAnalysis.parse { file := p.text, infer := o.infer } (s.tree.source o.limit p) with
    ⟨a, e | reason⟩
  · exact ⟨s.log, rfl⟩
  · cases reason with
    | none => exact ⟨s.log, rfl⟩
    | some reason => exact ⟨s.log ++ [reason.record a.file], rfl⟩

theorem exists_find_of_admits {limit : SizeLimit} (h : t.admits limit p = true) :
    ∃ content number changed, t.find false p = .ok (.file content number changed) := by
  unfold FileTree.admits at h
  split at h
  · next content number changed hfind => exact ⟨content, number, changed, hfind⟩
  · cases h

/-- A file that is not admitted is skipped. -/
theorem analysis_of_not_admits (h : t.admits o.limit p = false) :
    analysis o t p = .ok (FileAnalysis.skip { file := p.text, infer := o.infer }) := by
  have hsource : t.source o.limit p = .inadmissible := by
    unfold FileTree.admits at h
    unfold FileTree.source
    split at h
    · next content number changed hfind => rw [if_neg (by simpa using h)]
    · rfl
  rw [analysis, hsource]
  rfl

/-- What is found in a file that is admitted. -/
theorem analysis_of_finds {content : FileContent} {number : Nat} {changed : Moment}
    {r : WalkResult} (hfind : t.find false p = .ok (.file content number changed))
    (hadmits : t.admits o.limit p = true)
    (h : FileAnalysis.Finds p.text o.infer content.tree r) :
    analysis o t p = .ok (FileAnalysis.keep { file := p.text, infer := o.infer } r) := by
  have hsource : t.source o.limit p = .tree content.tree := by
    rw [FileTree.admits, hfind] at hadmits
    rw [FileTree.source, hfind]
    exact if_pos (by simpa using hadmits)
  rw [analysis, hsource, h]

/-- A file that is not skipped is there, and something is found in it. -/
theorem exists_finds_of_analysis {a : FileAnalysis} (h : analysis o t p = .ok a)
    (hkept : a.skipped = false) :
    ∃ content number changed, t.find false p = .ok (.file content number changed) ∧
      FileAnalysis.Finds p.text o.infer content.tree a.result := by
  unfold analysis at h
  split at h
  · next found reason hparse =>
    cases h
    obtain ⟨root, hsource, hfinds⟩ := FileAnalysis.finds_of_parse hparse hkept
    unfold FileTree.source at hsource
    split at hsource
    · next content number changed hfind =>
      split at hsource
      · cases hsource
        exact ⟨content, number, changed, hfind, hfinds⟩
      · cases hsource
    · cases hsource
  · cases h

/-! ## One file after the other, without a cache -/

theorem run_process_none (o : Options) (p : PathName) (s : Session) :
    ∃ log, (process o none p).run.run s =
      ((examine o s.tree p).map fun found => (found, none), { s with log := log }) := by
  obtain ⟨log, hrun⟩ := run_analyze o p s
  refine ⟨log, ?_⟩
  unfold process examine
  dsimp only
  rw [run_bind, hrun]
  cases analysis o s.tree p <;> rfl

/-- **Without a cache every file is analysed**, and the files stay as they
are. -/
theorem run_processAll_none (o : Options) (ps : List PathName) (s : Session) :
    ∃ log, (processAll o none ps).run.run s =
      (ps.mapM (examine o s.tree), { s with log := log }) := by
  induction ps generalizing s with
  | nil => exact ⟨s.log, rfl⟩
  | cons p ps ih =>
    obtain ⟨log, hprocess⟩ := run_process_none o p s
    rw [processAll, run_bind, hprocess, List.mapM_cons]
    cases examine o s.tree p with
    | error e => exact ⟨log, rfl⟩
    | ok found =>
      obtain ⟨log', hrest⟩ := ih { s with log := log }
      refine ⟨log', ?_⟩
      simp only [Except.map, run_bind, hrest]
      dsimp only [bind, Except.bind]
      cases ps.mapM (examine o s.tree) <;> rfl

/-! ## Turns -/

/-- What one file of a build with a cache does: the outcome, and the tree
that is left. -/
inductive Turn (o : Options) (c : AnalysisCache) (t : FileTree) (p : PathName) :
    Except Failure (Contribution × Option AnalysisCache) → FileTree → Prop
  /-- The cache cannot be asked. -/
  | fault {e : CacheError} : c.get? t p = .error e → Turn o c t p (.error (.cache e)) t
  /-- The cache has the results. -/
  | served {r : WalkResult Json Json} : c.get? t p = .ok (some r) →
      Turn o c t p (.ok (⟨p, r, false⟩, some c)) t
  /-- The analysis fails. -/
  | failed {e : Failure} : c.get? t p = .ok none → analysis o t p = .error e →
      Turn o c t p (.error e) t
  /-- The file is skipped. -/
  | skipped {a : FileAnalysis} : c.get? t p = .ok none → analysis o t p = .ok a →
      a.skipped = true → Turn o c t p (.ok (⟨p, a.result.values, a.skipped⟩, some c)) t
  /-- The results cannot be stored. -/
  | unstored {a : FileAnalysis} {c' : AnalysisCache} {t' : FileTree} {e : CacheError} :
      c.get? t p = .ok none → analysis o t p = .ok a → a.skipped = false →
      c.set t p a.result.values = ((c', t'), .error e) → Turn o c t p (.error (.cache e)) t'
  /-- The results are stored. -/
  | stored {a : FileAnalysis} {c' : AnalysisCache} {t' : FileTree} :
      c.get? t p = .ok none → analysis o t p = .ok a → a.skipped = false →
      c.set t p a.result.values = ((c', t'), .ok ()) →
      Turn o c t p (.ok (⟨p, a.result.values, a.skipped⟩, some c')) t'

theorem run_store (c : AnalysisCache) (p : PathName) (r : WalkResult Json Json) (s : Session) :
    (Job.store c p r).run.run s =
      (((c.set s.tree p r).2.mapError .cache).map fun _ => (c.set s.tree p r).1.1,
        { s with tree := (c.set s.tree p r).1.2 }) := by
  unfold Job.store
  rw [run_bind, run_tree]
  dsimp only
  rcases c.set s.tree p r with ⟨⟨c', t'⟩, e | u⟩ <;> rfl

/-- **Every file takes one of the turns.** -/
theorem turn_process (o : Options) (c : AnalysisCache) (p : PathName) (s : Session) :
    Turn o c s.tree p ((process o (some c) p).run.run s).1
      ((process o (some c) p).run.run s).2.tree := by
  unfold process
  dsimp only
  rw [run_bind, run_tree]
  dsimp only
  rw [run_bind, run_lift]
  rcases hget : c.get? s.tree p with e | answer
  · exact .fault hget
  cases answer with
  | some r => exact .served hget
  | none =>
    dsimp only [Except.mapError]
    obtain ⟨log, hrun⟩ := run_analyze o p s
    rw [run_bind, hrun]
    cases hanalysis : analysis o s.tree p with
    | error e => exact .failed hget hanalysis
    | ok a =>
      dsimp only
      cases hskipped : a.skipped with
      | true =>
        have h := Turn.skipped hget hanalysis hskipped
        rw [hskipped] at h
        exact h
      | false =>
        simp only [Bool.false_eq_true, if_false, run_bind, run_store]
        rcases hset : c.set s.tree p a.result.values with ⟨⟨c', t'⟩, e | u⟩
        · exact .unstored hget hanalysis hskipped hset
        · have h := Turn.stored hget hanalysis hskipped hset
          rw [hskipped] at h
          exact h

/-- A file takes one turn only. -/
theorem Turn.unique {x y : Except Failure (Contribution × Option AnalysisCache)}
    {t₁ t₂ : FileTree} (h : Turn o c t p x t₁) (h' : Turn o c t p y t₂) : x = y ∧ t₁ = t₂ := by
  cases h <;> cases h' <;> simp_all

/-! ## What stays true -/

variable {Seen : CacheTables.Sighting} {env : Environment} {base : FileTree}

/-- The tree has the files the run started with, and its tables are sound. -/
structure Kept (Seen : CacheTables.Sighting) (base t : FileTree) : Prop where
  /-- No name stands twice. -/
  proper : t.top.Proper
  /-- The files are the same. -/
  same : t.SameFiles base
  /-- All tables are sound. -/
  held : ∀ tables, t.top.Holds tables → tables.Sound Seen

theorem Kept.mono {Seen' : CacheTables.Sighting} (h : Kept Seen base t)
    (hle : ∀ file stamp size root, Seen file stamp size root → Seen' file stamp size root) :
    Kept Seen' base t :=
  ⟨h.proper, h.same, fun tables ht => (h.held tables ht).mono hle⟩

/-- A cache that can be asked and written to, under some settings. -/
structure Ready (Seen : CacheTables.Sighting) (env : Environment) (base t : FileTree)
    (c : AnalysisCache) : Prop extends Kept Seen base t where
  /-- The cache is in step with its file. -/
  inStep : c.InStep t
  /-- It was opened under these settings. -/
  settings : c.fingerprint = env.cacheFingerprint

/-- What stands at a path has been seen there. -/
def Shows (Seen : CacheTables.Sighting) (t : FileTree) (p : PathName) : Prop :=
  ∀ content number changed, t.find false p = .ok (.file content number changed) →
    Seen p.text changed.stamp content.size content.tree

/-- Nothing but what stands at a path has been seen there with the same time
and size. -/
def Tells (Seen : CacheTables.Sighting) (t : FileTree) (p : PathName) : Prop :=
  ∀ content number changed root, t.find false p = .ok (.file content number changed) →
    Seen p.text changed.stamp content.size root → root = content.tree

namespace Ready

theorem sound (h : Ready Seen env base t c) : c.tables.Sound Seen := h.held _ h.inStep.holds

/-- **An answer was found in a tree that was seen when the file had the time
and the size it has now.** -/
theorem exists_finds_of_get? {r : WalkResult Json Json} (h : Ready Seen env base t c)
    (hget : c.get? t p = .ok (some r)) :
    ∃ e root w, t.find true p = .ok e ∧ Seen p.text e.changed.stamp e.size root ∧
      FileAnalysis.Finds p.text env.inference root w ∧ r = w.values := by
  rw [h.inStep.get?, FileTree.cacheKey?] at hget
  cases hfind : t.find true p with
  | error e =>
    rw [hfind] at hget
    cases e <;> cases hget
  | ok e =>
    simp only [hfind] at hget
    rcases h.sound.get? p.text ⟨e.changed.stamp, e.size, c.fingerprint⟩ with
      hnone | ⟨row, root, env', w, htrue, hsome⟩
    · rw [hnone] at hget
      cases hget
    · rw [hsome] at hget
      cases hget
      have hinfer : env'.inference = env.inference :=
        Environment.inference_eq (htrue.settings.trans h.settings)
      exact ⟨e, root, w, rfl, htrue.seen, hinfer ▸ htrue.found, rfl⟩

/-- It can always be asked for a file whose name can be asked for. -/
theorem get?_ne_error (h : Ready Seen env base t c) (hp : p.text.contains '\x00' = false)
    (e : CacheError) : c.get? t p ≠ .error e := by
  rw [h.inStep.get?, FileTree.cacheKey?]
  cases hfind : t.find true p with
  | error e' =>
    have hne : e' ≠ .nullCharacter := fun he => FileTree.find_ne_nullCharacter hp (he ▸ hfind)
    cases e' with
    | nullCharacter => exact absurd rfl hne
    | _ => exact fun hget => by cases hget
  | ok entry =>
    rcases h.sound.get? p.text ⟨entry.changed.stamp, entry.size, c.fingerprint⟩ with
      hanswer | ⟨_, _, _, _, -, hanswer⟩
    all_goals
      simp only [hanswer]
      exact fun hget => by cases hget

/-- To write sound tables keeps the cache ready. -/
theorem commit {tables : CacheTables} (h : Ready Seen env base t c) (hsound : tables.Sound Seen) :
    Ready Seen env base (AnalysisCache.commit { c with tables := tables } t)
      { c with tables := tables } := by
  obtain ⟨changed, hfile⟩ := h.inStep.stored
  refine ⟨⟨FileTree.proper_putTables h.proper hfile tables, ?_, fun held hheld => ?_⟩,
    h.inStep.commit tables, h.settings⟩
  · exact Eq.trans (FileTree.sameFiles_putTables h.proper hfile tables) h.same
  · rcases FileTree.holds_of_putTables hfile hheld with hheld | rfl
    · exact h.held held hheld
    · exact hsound

/-- **A turn keeps the cache ready**, and what it leaves when it fails can
still be relied on. -/
theorem turn {outcome : Except Failure (Contribution × Option AnalysisCache)}
    (h : Ready Seen env base t c) (ho : o.infer = env.inference) (hshows : Shows Seen t p)
    (hturn : Turn o c t p outcome t') :
    Kept Seen base t' ∧ ∀ found cache, outcome = .ok (found, cache) →
      ∃ c', cache = some c' ∧ Ready Seen env base t' c' := by
  cases hturn with
  | fault hget => exact ⟨h.toKept, fun _ _ h => by cases h⟩
  | served hget =>
    refine ⟨h.toKept, ?_⟩
    rintro _ _ ⟨⟩
    exact ⟨c, rfl, h⟩
  | failed hget hanalysis => exact ⟨h.toKept, fun _ _ h => by cases h⟩
  | skipped hget hanalysis hskipped =>
    refine ⟨h.toKept, ?_⟩
    rintro _ _ ⟨⟩
    exact ⟨c, rfl, h⟩
  | unstored hget hanalysis hskipped hset =>
    obtain ⟨content, number, changed, hfind, -⟩ := exists_finds_of_analysis hanalysis hskipped
    rw [h.inStep.set (FileTree.find_true_of_find_false hfind)] at hset
    dsimp only at hset
    split at hset
    · cases hset
    · cases hset
      exact ⟨h.toKept, fun _ _ h => by cases h⟩
  | @stored a c' _ hget hanalysis hskipped hset =>
    obtain ⟨content, number, changed, hfind, hfinds⟩ := exists_finds_of_analysis hanalysis hskipped
    rw [h.inStep.set (FileTree.find_true_of_find_false hfind)] at hset
    dsimp only at hset
    split at hset
    · next hstorable =>
      cases hset
      -- the new row says what was just found in the file
      have htrue : CacheTables.Truthful Seen p.text ⟨changed.stamp, content.size, c.fingerprint⟩
          (.ofResult p.text ⟨changed.stamp, content.size, c.fingerprint⟩ a.result.values)
          content.tree env a.result :=
        ⟨hshows content number changed hfind, h.settings.symm, ho ▸ hfinds, hstorable, rfl⟩
      have hready := h.commit (h.sound.insert htrue)
      refine ⟨hready.toKept, ?_⟩
      rintro _ _ ⟨⟩
      exact ⟨_, rfl, hready⟩
    · cases hset

end Ready

/-! ## Whole runs -/

theorem run_processAll_cons (o : Options) (cache : Option AnalysisCache) (p : PathName)
    (ps : List PathName) (s : Session) :
    (processAll o cache (p :: ps)).run.run s =
      match (process o cache p).run.run s with
      | (.ok (found, cache), s') =>
        (((processAll o cache ps).run.run s').1.map (found :: ·),
          ((processAll o cache ps).run.run s').2)
      | (.error e, s') => (.error e, s') := by
  rw [processAll, run_bind]
  rcases (process o cache p).run.run s with ⟨e | ⟨found, cache'⟩, s'⟩
  · rfl
  · dsimp only
    rw [run_bind]
    rcases (processAll o cache' ps).run.run s' with ⟨e | cs, s''⟩ <;> rfl

/-- A run that succeeds has a first turn and a rest. -/
theorem exists_of_processAll_cons {cache : Option AnalysisCache} {ps : List PathName} {s : Session}
    {found : List Contribution} (h : ((processAll o cache (p :: ps)).run.run s).1 = .ok found) :
    ∃ first cache' s' rest, (process o cache p).run.run s = (.ok (first, cache'), s') ∧
      ((processAll o cache' ps).run.run s').1 = .ok rest ∧ found = first :: rest := by
  rw [run_processAll_cons] at h
  rcases hrun : (process o cache p).run.run s with ⟨e | ⟨first, cache'⟩, s'⟩
  · rw [hrun] at h
    cases h
  · rw [hrun] at h
    dsimp only at h
    rcases hrest : ((processAll o cache' ps).run.run s').1 with e | rest
    · rw [hrest] at h
      cases h
    · rw [hrest] at h
      exact ⟨first, cache', s', rest, rfl, hrest, (Except.ok.inj h).symm⟩

theorem exists_of_mapM_cons {α β ε : Type} {f : α → Except ε β} {x : α} {xs : List α}
    {ys : List β} (h : (x :: xs).mapM f = .ok ys) :
    ∃ y rest, f x = .ok y ∧ xs.mapM f = .ok rest ∧ ys = y :: rest := by
  rw [List.mapM_cons] at h
  rcases hx : f x with e | y
  · rw [hx] at h
    cases h
  · rcases hxs : xs.mapM f with e | rest
    · rw [hx, hxs] at h
      cases h
    · rw [hx, hxs] at h
      exact ⟨y, rest, rfl, rfl, (Except.ok.inj h).symm⟩

/-- **Whatever becomes of a run, the tree it leaves can be relied on.** -/
theorem kept_processAll {ps : List PathName} {s : Session} (h : Ready Seen env base s.tree c)
    (ho : o.infer = env.inference)
    (hshows : ∀ p ∈ ps, ∀ t : FileTree, t.SameFiles base → Shows Seen t p) :
    Kept Seen base ((processAll o (some c) ps).run.run s).2.tree := by
  induction ps generalizing c s with
  | nil => exact h.toKept
  | cons p ps ih =>
    have hturn := turn_process o c p s
    rw [run_processAll_cons]
    rcases hrun : (process o (some c) p).run.run s with ⟨outcome, s'⟩
    rw [hrun] at hturn
    obtain ⟨hkept, hready⟩ := h.turn ho (hshows p List.mem_cons_self s.tree h.same) hturn
    rcases outcome with e | ⟨found, cache⟩
    · exact hkept
    · obtain ⟨c', rfl, hready'⟩ := hready found cache rfl
      exact ih hready' fun q hq => hshows q (List.mem_cons_of_mem p hq)

/-- In a run over some files, the results of a file come from the cache. -/
inductive Serves (o : Options) : AnalysisCache → Session → List PathName → PathName → Prop
  /-- They are those of the first file. -/
  | here {c : AnalysisCache} {s : Session} {p : PathName} {ps : List PathName}
      {r : WalkResult Json Json} : c.get? s.tree p = .ok (some r) → Serves o c s (p :: ps) p
  /-- They are those of a later file. -/
  | later {c c' : AnalysisCache} {s s' : Session} {p q : PathName} {ps : List PathName}
      {found : Contribution} : (process o (some c) p).run.run s = (.ok (found, some c'), s') →
      Serves o c' s' ps q → Serves o c s (p :: ps) q

/-- What a cache needs to know of a source to be relied on for it. -/
structure Reliable (Seen : CacheTables.Sighting) (o : Options) (base : FileTree) (p : PathName) :
    Prop where
  /-- Its name can be asked for. -/
  named : p.text.contains '\x00' = false
  /-- What stands there has been seen. -/
  shows : ∀ t : FileTree, t.SameFiles base → Shows Seen t p
  /-- Nothing else was seen there with the same time and size. -/
  tells : ∀ t : FileTree, t.SameFiles base → Tells Seen t p
  /-- What is found there can be stored. -/
  storable : ∀ a, analysis o base p = .ok a → a.result.values.isStorable

theorem analysis_congr (h : t.SameFiles t') (o : Options) (p : PathName) :
    analysis o t p = analysis o t' p := by
  rw [analysis, h.source, analysis]

theorem examine_congr (h : t.SameFiles t') (o : Options) (p : PathName) :
    examine o t p = examine o t' p := by
  rw [examine, analysis_congr h, examine]

/-- **What is served for a file that is admitted is what its analysis
gives.** -/
theorem examine_of_served {r : WalkResult Json Json} (h : Ready Seen env base t c)
    (ho : o.infer = env.inference) (hp : Reliable Seen o base p)
    (hget : c.get? t p = .ok (some r)) (hadmits : t.admits o.limit p = true) :
    examine o t p = .ok ⟨p, r, false⟩ := by
  obtain ⟨content, number, changed, hfile⟩ := exists_find_of_admits hadmits
  obtain ⟨e, root, w, hfind, hseen, hfinds, rfl⟩ := h.exists_finds_of_get? hget
  cases (FileTree.find_true_of_find_false hfile).symm.trans hfind
  obtain rfl : root = content.tree := hp.tells t h.same content number changed root hfile hseen
  rw [examine, analysis_of_finds hfile hadmits (ho ▸ hfinds)]
  rfl

/-- A source that can be relied on is served, or it is analysed. -/
theorem turn_outcome {outcome : Except Failure (Contribution × Option AnalysisCache)}
    (h : Ready Seen env base t c) (hp : Reliable Seen o base p)
    (hturn : Turn o c t p outcome t') :
    (∃ r, c.get? t p = .ok (some r) ∧ outcome = .ok (⟨p, r, false⟩, some c)) ∨
      c.get? t p = .ok none ∧ outcome.map Prod.fst = examine o t p := by
  cases hturn with
  | fault hget => exact absurd hget (h.get?_ne_error hp.named _)
  | served hget => exact Or.inl ⟨_, hget, rfl⟩
  | failed hget hanalysis =>
    refine Or.inr ⟨hget, ?_⟩
    rw [examine, hanalysis]
    rfl
  | skipped hget hanalysis hskipped =>
    refine Or.inr ⟨hget, ?_⟩
    rw [examine, hanalysis]
    rfl
  | unstored hget hanalysis hskipped hset =>
    obtain ⟨content, number, changed, hfind, -⟩ := exists_finds_of_analysis hanalysis hskipped
    rw [h.inStep.set (FileTree.find_true_of_find_false hfind)] at hset
    dsimp only at hset
    rw [if_pos (hp.storable _ (analysis_congr h.same o p ▸ hanalysis))] at hset
    cases hset
  | stored hget hanalysis hskipped hset =>
    refine Or.inr ⟨hget, ?_⟩
    rw [examine, hanalysis]
    rfl

/-- **A run that serves no file but admitted ones gives what a run without a
cache does.** -/
theorem processAll_eq_mapM {ps : List PathName} {s : Session} (h : Ready Seen env base s.tree c)
    (ho : o.infer = env.inference) (hps : ∀ p ∈ ps, Reliable Seen o base p)
    (hserved : ∀ q, Serves o c s ps q → base.admits o.limit q = true) :
    ((processAll o (some c) ps).run.run s).1 = ps.mapM (examine o base) := by
  -- on the files left, for any cache and session: both change from turn to
  -- turn, but the cache stays ready and the files stay those of `base`
  induction ps generalizing c s with
  | nil => rfl
  | cons p ps ih =>
    have hp := hps p List.mem_cons_self
    have hturn := turn_process o c p s
    have hfirst : ∀ r, c.get? s.tree p = .ok (some r) →
        examine o base p = .ok ⟨p, r, false⟩ := by
      intro r hget
      rw [← examine_congr h.same]
      refine examine_of_served h ho hp hget ?_
      rw [h.same.admits]
      exact hserved p (.here hget)
    rw [run_processAll_cons, List.mapM_cons]
    rcases hrun : (process o (some c) p).run.run s with ⟨outcome, s'⟩
    rw [hrun] at hturn
    obtain ⟨-, hready⟩ := h.turn ho (hp.shows s.tree h.same) hturn
    have hexamine : outcome.map Prod.fst = examine o base p := by
      rcases turn_outcome h hp hturn with ⟨r, hget, rfl⟩ | ⟨-, houtcome⟩
      · exact (hfirst r hget).symm
      · rw [houtcome, examine_congr h.same]
    rw [← hexamine]
    rcases outcome with e | ⟨found, cache⟩
    · rfl
    · obtain ⟨c', rfl, hready'⟩ := hready found cache rfl
      have hrest := ih hready' (fun q hq => hps q (List.mem_cons_of_mem p hq))
        fun q hq => hserved q (.later hrun hq)
      dsimp only
      rw [hrest]
      cases ps.mapM (examine o base) <;> rfl

/-- **A file that is served though it is not admitted is missing from the
skipped ones**; none is skipped that would not be without a cache. -/
theorem countP_skipped_lt {ps : List PathName} {s : Session} {found fresh : List Contribution}
    (h : Ready Seen env base s.tree c) (ho : o.infer = env.inference)
    (hps : ∀ p ∈ ps, Reliable Seen o base p)
    (hfound : ((processAll o (some c) ps).run.run s).1 = .ok found)
    (hfresh : ps.mapM (examine o base) = .ok fresh) :
    found.countP (·.skipped) ≤ fresh.countP (·.skipped) ∧
      ∀ q, Serves o c s ps q → base.admits o.limit q = false →
        found.countP (·.skipped) < fresh.countP (·.skipped) := by
  induction ps generalizing c s found fresh with
  | nil =>
    cases hfound
    cases hfresh
    exact ⟨Nat.le_refl 0, fun q hq => by cases hq⟩
  | cons p ps ih =>
    obtain ⟨first, cache, s', rest, hrun, hrest, rfl⟩ := exists_of_processAll_cons hfound
    obtain ⟨first', rest', hfirst, hrest', rfl⟩ := exists_of_mapM_cons hfresh
    have hp := hps p List.mem_cons_self
    have hturn := turn_process o c p s
    rw [hrun] at hturn
    obtain ⟨c', rfl, hready'⟩ := (h.turn ho (hp.shows s.tree h.same) hturn).2 first cache rfl
    obtain ⟨hle, hlt⟩ := ih hready' (fun q hq => hps q (List.mem_cons_of_mem p hq)) hrest hrest'
    rw [List.countP_cons, List.countP_cons]
    rcases turn_outcome h hp hturn with ⟨r, hget, houtcome⟩ | ⟨hget, houtcome⟩
    · -- the first file is served, so it is not among the skipped ones
      have hkept : first.skipped = false := by
        cases houtcome
        rfl
      rw [hkept]
      refine ⟨Nat.le_trans hle (Nat.le_add_right _ _), fun q hq hadmits => ?_⟩
      cases hq with
      | here _ =>
        have hskipped : first'.skipped = true := by
          rw [examine, analysis_of_not_admits hadmits] at hfirst
          cases hfirst
          rfl
        rw [hskipped]
        exact Nat.lt_succ_of_le hle
      | later hrun' hq =>
        rw [hrun] at hrun'
        cases hrun'
        exact Nat.lt_of_lt_of_le (hlt q hq hadmits) (Nat.le_add_right _ _)
    · -- the first file is analysed, with a cache or without
      obtain rfl : first = first' := by
        rw [examine_congr h.same, hfirst] at houtcome
        exact Except.ok.inj houtcome
      refine ⟨Nat.add_le_add_right hle _, fun q hq hadmits => ?_⟩
      cases hq with
      | here hget' =>
        rw [hget] at hget'
        cases hget'
      | later hrun' hq =>
        rw [hrun] at hrun'
        cases hrun'
        exact Nat.add_lt_add_right (hlt q hq hadmits) _

end Project

end ConstGraph
