import ConstGraph.Proofs.FileTrees

/-!
# The file of an open cache

A cache that has been opened is in step with its file: the file holds the
tables the cache sees, and nothing keeps it from being written
(`InStep`). Opening brings this about wherever it succeeds, and brings no
tables into the tree but empty ones (`openIn_opened`); every change of the
cache that is finished keeps it (`InStep.commit`). Where the directory of
the cache stands at the end of a straight path, no more is done than to
open the file in it (`openIn_of_entryAt`).
-/

namespace ConstGraph

/-! ## Runs that may fail -/

section Runs

variable {ε σ α β : Type}

theorem run_bind (x : ExceptT ε (StateM σ) α) (f : α → ExceptT ε (StateM σ) β) (s : σ) :
    (x >>= f).run.run s =
      match x.run.run s with
      | (.ok a, s') => (f a).run.run s'
      | (.error e, s') => (.error e, s') := by
  rw [ExceptT.run_bind, StateT.run_bind]
  rcases x.run.run s with ⟨a | e, s'⟩ <;> rfl

theorem run_tryCatch (x : ExceptT ε (StateM σ) α) (f : ε → ExceptT ε (StateM σ) α) (s : σ) :
    (tryCatch x f).run.run s =
      match x.run.run s with
      | (.ok a, s') => (.ok a, s')
      | (.error e, s') => (f e).run.run s' := by
  have h : (tryCatch x f).run = x.run >>= fun r => match r with
    | .ok a => pure (.ok a)
    | .error e => (f e).run := rfl
  rw [h, StateT.run_bind]
  rcases x.run.run s with ⟨a | e, s'⟩ <;> rfl

end Runs

namespace FileTree

variable {t : FileTree} {place : Place} {e : FileEntry} {c : CacheTables}

/-! ## New entries -/

/-- Where nothing stands, something stands in no directory either. -/
theorem exists_concat_of_entryAt_eq_none (h : t.entryAt place = none) :
    ∃ outer name, place = outer ++ [name] ∧
      ∀ x, t.top.descend outer = some x → x.child? name = none := by
  rcases List.eq_nil_or_concat' place with rfl | ⟨outer, name, rfl⟩
  · rw [entryAt, FileEntry.descend_nil] at h
    cases h
  · refine ⟨outer, name, rfl, fun x hx => ?_⟩
    rw [entryAt, FileEntry.descend_append, hx, Option.bind_some, FileEntry.descend_cons] at h
    cases hchild : x.child? name with
    | none => rfl
    | some y =>
      rw [hchild] at h
      simp at h

theorem proper_insert (hproper : t.top.Proper) (h : t.entryAt place = none) (he : e.Proper) :
    (t.insert place e).top.Proper := by
  obtain ⟨outer, name, rfl, hnew⟩ := exists_concat_of_entryAt_eq_none h
  rw [insert, List.dropLast_concat, List.getLastD_concat]
  exact hproper.modify fun x hx hxp => hxp.insert he (hnew x hx) _

theorem holds_of_insert (he : ∀ c, ¬ e.Holds c) (hc : (t.insert place e).top.Holds c) :
    t.top.Holds c := by
  rcases FileEntry.Holds.of_modify (P := False)
    (fun x hx => hx.of_insert.imp_right fun h => he c h) hc with hc | hc
  · exact hc
  · exact hc.elim

/-- A new entry stands where it was put, if there is a directory for it. -/
theorem entryAt_insert {entries : List (String × FileEntry)} {changed : Moment}
    (h : t.entryAt place = none)
    (hdir : t.entryAt place.dropLast = some (.directory entries changed)) :
    (t.insert place e).entryAt place = some e := by
  obtain ⟨outer, name, rfl, hnew⟩ := exists_concat_of_entryAt_eq_none h
  rw [List.dropLast_concat, entryAt] at hdir
  have hnone : entries.lookup name = none := hnew _ hdir
  rw [insert, List.dropLast_concat, List.getLastD_concat, entryAt, modify,
    FileEntry.descend_modify_append, hdir, Option.bind_some, FileEntry.descend_cons]
  simp [FileEntry.insert, FileEntry.child?, FileEntry.entries, List.lookup_append, hnone]

/-! ## Making the directory -/

theorem run_ask {α : Type} (question : FileTree → Except FileError α) (t : FileTree) :
    (FileChange.ask question).run.run t = (question t, t) := by
  have hget : (get : FileChange FileTree).run.run t = (.ok t, t) := rfl
  rw [FileChange.ask, run_bind, hget]
  dsimp only
  cases question t <;> rfl

theorem run_makeDirectory (p : PathName) (t : FileTree) :
    (FileChange.makeDirectory p).run.run t =
      match t.locate false p with
      | .error e => (.error e, t)
      | .ok spot =>
        if spot.entry.isSome then (.error .alreadyExists, t)
        else (.ok (), t.insert spot.place (.directory [] t.now)) := by
  rw [FileChange.makeDirectory, run_bind, run_ask]
  cases t.locate false p with
  | error e => rfl
  | ok spot =>
    dsimp only
    cases spot.entry.isSome <;> rfl

/-- To find out that a directory is there changes nothing. -/
theorem run_unlessDirectory (p : PathName) (e : FileError) (t : FileTree) :
    ((FileChange.unlessDirectory p e).run.run t).2 = t := by
  unfold FileChange.unlessDirectory
  by_cases hnull : e = .nullCharacter
  · simp only [if_pos hnull]
    rfl
  · simp only [if_neg hnull, run_bind, run_ask]
    cases t.isDirectory p with
    | error e => rfl
    | ok b => cases b <;> rfl

/-- Making a directory, unless there is one, puts one where there is
nothing, or changes nothing. -/
theorem ensureDirectory_cases (p : PathName) (t : FileTree) :
    ((FileChange.ensureDirectory p).run.run t).2 = t ∨
      ∃ place, t.entryAt place = none ∧
        ((FileChange.ensureDirectory p).run.run t).2 = t.insert place (.directory [] t.now) := by
  have failed : ∀ e, ((if e = .notFound then throw e
      else FileChange.unlessDirectory p e : FileChange Unit).run.run t).2 = t := by
    intro e
    split
    · rfl
    · exact run_unlessDirectory p e t
  rw [FileChange.ensureDirectory, run_tryCatch, run_makeDirectory]
  cases hlocate : t.locate false p with
  | error e => exact Or.inl (failed e)
  | ok spot =>
    dsimp only
    cases hentry : spot.entry with
    | none => exact Or.inr ⟨spot.place, (entryAt_of_locate hlocate).trans hentry, rfl⟩
    | some x => exact Or.inl (failed .alreadyExists)

/-- A file that is not there has no key. -/
theorem cacheKey?_of_missing {p : PathName} {e : FileError} (h : t.find true p = .error e)
    (fingerprint : String) :
    t.cacheKey? fingerprint p =
      if e = .nullCharacter then .error (.file .nullCharacter) else .ok none := by
  rw [cacheKey?, h]
  cases e <;> rfl

section Straight

variable {p : PathName} {entries : List (String × FileEntry)} {changed : Moment}

/-- Where a directory stands, none is made. -/
theorem run_ensureDirectory_of_entryAt (hp : isStraight p)
    (h : t.entryAt p.parts = some (.directory entries changed)) :
    (FileChange.ensureDirectory p).run.run t = (.ok (), t) := by
  have hlocate := locate_of_entryAt hp h (by simp) false
  have hdirectory : t.isDirectory p = .ok true :=
    ask_of_entryAt hp h (by simp) true FileEntry.isDirectory
  have hthere : (FileChange.unlessDirectory p .alreadyExists).run.run t = (.ok (), t) := by
    have hother : FileError.alreadyExists ≠ .nullCharacter := by decide
    unfold FileChange.unlessDirectory
    simp only [if_neg hother, run_bind, run_ask, hdirectory]
    rfl
  rw [FileChange.ensureDirectory, run_tryCatch, run_makeDirectory, hlocate]
  exact hthere

/-- The last of some plain names need not exist for the file of the tables to
have its place there. -/
theorem resolve_of_descend {done names : List String} {name : String}
    (hnames : ∀ n ∈ names ++ [name], isPlainName n) (hdone : t.entryAt done.reverse = some e)
    (h : e.descend names = some (.directory entries changed))
    (hlink : ∀ target, entries.lookup name ≠ some (.link target)) (links : Nat) :
    t.resolve links done (names ++ [name]) = .ok (done.reverse ++ names ++ [name]) := by
  induction names generalizing done e with
  | nil =>
    rw [FileEntry.descend_nil] at h
    cases h
    obtain ⟨hdot, hdots, hshort⟩ := isPlainName_iff.1 (hnames name List.mem_cons_self)
    rw [List.nil_append, resolve, if_neg hdot, if_neg hdots, hdone]
    dsimp only
    rw [if_neg (by omega)]
    split
    · next target hlookup => exact absurd hlookup (hlink target)
    · rw [resolve]
      simp
  | cons first rest ih =>
    obtain ⟨hdot, hdots, hshort⟩ := isPlainName_iff.1 (hnames first List.mem_cons_self)
    rw [FileEntry.descend_cons] at h
    obtain ⟨x, hx, hrest⟩ := Option.bind_eq_some_iff.1 h
    have hnext : t.entryAt (first :: done).reverse = some x := by
      rw [entryAt] at hdone ⊢
      rw [List.reverse_cons, FileEntry.descend_append, hdone, Option.bind_some,
        FileEntry.descend_cons, hx]
      exact FileEntry.descend_nil x
    have hdown : t.resolve links (first :: done) (rest ++ [name]) =
        .ok (done.reverse ++ first :: rest ++ [name]) := by
      rw [ih (fun n hn => hnames n (List.mem_cons_of_mem _ hn)) hnext hrest]
      simp
    cases e with
    | directory around changed' =>
      rw [List.cons_append, resolve, if_neg hdot, if_neg hdots, hdone]
      dsimp only
      rw [if_neg (by omega)]
      split
      · next target hlookup =>
        -- a link on the way would have nothing below it
        cases hx.symm.trans hlookup
        cases (FileEntry.eq_of_descend_eq_some rfl hrest).2
      · exact hdown
    | _ => cases hx

end Straight

end FileTree

namespace AnalysisCache

variable {t : FileTree} {c : AnalysisCache}

/-! ## In step with the file -/

/-- A cache is open, and its file holds the tables the cache sees and can be
written. -/
structure InStep (c : AnalysisCache) (t : FileTree) : Prop where
  /-- The cache is open. -/
  isOpen : c.isOpen = true
  /-- The tables stand at their place, in the file that was opened. -/
  stored : ∃ changed, t.entryAt c.place = some (.file (.tables c.tables) c.number changed)
  /-- Nothing is in the way of a journal. -/
  free : t.isJournalBlocked c.place = false

namespace InStep

theorem isAttached (h : c.InStep t) : c.isAttached t = true := by
  obtain ⟨changed, hfile⟩ := h.stored
  simp [AnalysisCache.isAttached, hfile]

theorem read (h : c.InStep t) : c.read t = .ok c.tables := by
  obtain ⟨changed, hfile⟩ := h.stored
  simp [AnalysisCache.read, h.isOpen, h.isAttached, hfile, FileTree.foreignContent?, h.free]

theorem write (h : c.InStep t) (f : CacheTables → CacheTables) :
    c.write t f = .ok { c with tables := f c.tables } := by
  simp [AnalysisCache.write, h.read, h.isAttached, bind, Except.bind, pure, Except.pure]

theorem get? (h : c.InStep t) (p : PathName) :
    c.get? t p =
      match t.cacheKey? c.fingerprint p with
      | .error e => .error e
      | .ok none => .ok none
      | .ok (some key) => (c.tables.get? p.text key).mapError .stored := by
  unfold AnalysisCache.get?
  rw [h.read]
  rcases t.cacheKey? c.fingerprint p with e | key
  · rfl
  · cases key <;> rfl

/-- The results of a file that is there are stored, if they can be. -/
theorem set {p : PathName} {e : FileEntry} (h : c.InStep t) (hfind : t.find true p = .ok e)
    (r : WalkResult Json Json) :
    c.set t p r =
      let key : CacheKey := ⟨e.changed.stamp, e.size, c.fingerprint⟩
      if r.isStorable then
        let c' := { c with tables := c.tables.insert p.text key r }
        ((c', c'.commit t), .ok ())
      else
        (({ c with tables := c.tables.insertKey p.text key }, t), .error (.stored .overlong)) := by
  unfold AnalysisCache.set
  rw [FileTree.cacheKey?, hfind]
  dsimp only
  rw [h.write]
  rfl

theorem holds (h : c.InStep t) : t.top.Holds c.tables := by
  obtain ⟨changed, hfile⟩ := h.stored
  exact FileEntry.holds_of_descend hfile .file

/-- **A finished change keeps a cache in step with its file.** -/
theorem commit (h : c.InStep t) (tables : CacheTables) :
    ({ c with tables := tables }).InStep (AnalysisCache.commit { c with tables := tables } t) := by
  obtain ⟨changed, hfile⟩ := h.stored
  obtain ⟨changed', hput⟩ := FileTree.entryAt_putTables hfile tables
  refine ⟨h.isOpen, ⟨changed', hput⟩, ?_⟩
  exact (FileTree.isJournalBlocked_putTables hfile tables c.place).trans h.free

end InStep

/-- **A closed cache refuses everything it needs its tables for**, and of a
file that is not there it answers as before. -/
theorem close_refuses (c : AnalysisCache) (t : FileTree) (p : PathName) :
    (∀ e, t.find true p = .ok e →
        c.close.isCached t p = .error .closed ∧ c.close.get? t p = .error .closed ∧
          ∀ r, c.close.set t p r = ((c.close, t), .error .closed)) ∧
      (∀ e, t.find true p = .error e →
        c.close.isCached t p = c.isCached t p ∧ c.close.get? t p = c.get? t p ∧
          ∀ r, (c.close.set t p r).2 = (c.set t p r).2) ∧
      c.close.invalidate t p = .error .closed ∧ c.close.clear t = .error .closed ∧
      c.close.stats t = .error .closed := by
  refine ⟨fun e hfind => ?_, fun e hfind => ?_, rfl, rfl, rfl⟩
  · have hkey : ∀ fingerprint, t.cacheKey? fingerprint p =
        .ok (some ⟨e.changed.stamp, e.size, fingerprint⟩) := by
      intro fingerprint
      rw [FileTree.cacheKey?, hfind]
    simp only [isCached, get?, set, hkey]
    exact ⟨rfl, rfl, fun r => rfl⟩
  · simp only [isCached, get?, set, FileTree.cacheKey?_of_missing hfind]
    split <;> exact ⟨rfl, rfl, fun r => rfl⟩

/-! ## Opening -/

/-- What opening a cache leaves: a proper tree that holds no new tables but
empty ones and, if all went well, a cache in step with its file. -/
structure Opened (t t' : FileTree) (fingerprint : String)
    (outcome : Except CacheError AnalysisCache) : Prop where
  /-- No name stands twice. -/
  proper : t'.top.Proper
  /-- No new tables are held but empty ones. -/
  held : ∀ tables, t'.top.Holds tables → t.top.Holds tables ∨ tables = {}
  /-- The cache is in step with its file. -/
  inStep : ∀ c, outcome = .ok c → c.fingerprint = fingerprint ∧ c.InStep t'

theorem opened_of_error {e : CacheError} {fingerprint : String} (h : t.top.Proper) :
    Opened t t fingerprint (.error e) :=
  ⟨h, fun _ => Or.inl, fun _ h => by cases h⟩

/-- Empty tables are written into a file that is there. -/
theorem opened_start {place : Place} {content : FileContent} {number : Nat} {changed : Moment}
    {fingerprint : String} (h : t.top.Proper)
    (hfile : t.entryAt place = some (.file content number changed))
    (hfree : t.isJournalBlocked place = false) :
    Opened t (t.putTables place {}) fingerprint
      (.ok { place, number, tables := {}, fingerprint }) := by
  refine ⟨FileTree.proper_putTables h hfile {}, fun tables => FileTree.holds_of_putTables hfile, ?_⟩
  rintro c ⟨⟩
  obtain ⟨changed', hput⟩ := FileTree.entryAt_putTables hfile {}
  exact ⟨rfl, rfl, ⟨changed', hput⟩,
    (FileTree.isJournalBlocked_putTables hfile {} place).trans hfree⟩

theorem Opened.of_tree {t₀ t t' : FileTree} {fingerprint : String}
    {outcome : Except CacheError AnalysisCache} (h : Opened t t' fingerprint outcome)
    (hheld : ∀ tables, t.top.Holds tables → t₀.top.Holds tables) :
    Opened t₀ t' fingerprint outcome :=
  ⟨h.proper, fun tables ht => (h.held tables ht).imp_left (hheld tables), h.inStep⟩

theorem opened_openTables (h : t.top.Proper) (place : Place) (fingerprint : String) :
    Opened t (t.openTables place fingerprint).1 fingerprint (t.openTables place fingerprint).2 := by
  unfold FileTree.openTables
  cases hentry : t.entryAt place with
  | none =>
    dsimp only
    cases houter : t.entryAt place.dropLast with
    | none => exact opened_of_error h
    | some outer =>
      cases outer with
      | directory entries changed =>
        dsimp only
        split
        · -- the file is made first, and then opened like one that was there
          have hfile : (t.putFile place (.text "") t.now).entryAt place =
              some (.file (.text "") t.clock t.now) := by
            rw [FileTree.putFile, hentry]
            exact FileTree.entryAt_insert hentry houter
          have hproper : (t.putFile place (.text "") t.now).top.Proper := by
            rw [FileTree.putFile, hentry]
            exact FileTree.proper_insert h hentry .file
          have hheld : ∀ tables, (t.putFile place (.text "") t.now).top.Holds tables →
              t.top.Holds tables := by
            intro tables htables
            rw [FileTree.putFile, hentry] at htables
            exact FileTree.holds_of_insert (fun _ hc => by cases hc) htables
          split
          · exact (opened_of_error hproper).of_tree hheld
          · next hfree => exact (opened_start hproper hfile (by simpa using hfree)).of_tree hheld
        · exact opened_of_error h
      | _ => exact opened_of_error h
  | some e =>
    cases e with
    | file content number changed =>
      cases content with
      | tables tables =>
        dsimp only
        split
        · exact opened_of_error h
        · next hfree =>
          refine ⟨h, fun _ => Or.inl, ?_⟩
          rintro c ⟨⟩
          exact ⟨rfl, rfl, ⟨changed, hentry⟩, by simpa using hfree⟩
      | _ =>
        dsimp only
        split
        · split
          · exact opened_of_error h
          · next hfree => exact opened_start h hentry (by simpa using hfree)
        · exact opened_of_error h
    | _ => exact opened_of_error h

/-- **Opening the cache of a project** leaves a proper tree without new
tables and, if it succeeds, a cache in step with its file. -/
theorem openIn_opened (h : t.top.Proper) (root : PathName) (directory fingerprint : String) :
    Opened t (openIn t root directory fingerprint).1 fingerprint
      (openIn t root directory fingerprint).2 := by
  have hmade := FileTree.ensureDirectory_cases (root.join (.ofString directory)) t
  unfold openIn
  dsimp only
  rcases hrun : (FileChange.ensureDirectory (root.join (.ofString directory))).run.run t with
    ⟨outcome, t'⟩
  rw [hrun] at hmade
  have hproper : t'.top.Proper := by
    rcases hmade with rfl | ⟨place, hnone, rfl⟩
    · exact h
    · exact FileTree.proper_insert h hnone (.directory List.nodup_nil fun _ hx => by cases hx)
  have hheld : ∀ tables, t'.top.Holds tables → t.top.Holds tables := by
    intro tables htables
    rcases hmade with rfl | ⟨place, hnone, rfl⟩
    · exact htables
    · refine FileTree.holds_of_insert (fun c hc => ?_) htables
      cases hc with
      | directory hx _ => cases hx
  cases outcome with
  | error e => exact (opened_of_error hproper).of_tree hheld
  | ok u =>
    dsimp only
    split
    · exact (opened_of_error hproper).of_tree hheld
    · exact (opened_openTables hproper _ fingerprint).of_tree hheld

/-- Where the directory of a cache stands, its file is opened. -/
theorem openIn_of_entryAt {root dir : PathName} {directory : String}
    {entries : List (String × FileEntry)} {changed : Moment}
    (hdir : root.join (.ofString directory) = dir) (hstraight : FileTree.isStraight dir)
    (h : t.entryAt dir.parts = some (.directory entries changed))
    (hlink : ∀ target, entries.lookup "analysis.db" ≠ some (.link target))
    (hshort : (PathName.mk "/" (dir.parts ++ ["analysis.db"])).text.utf8ByteSize ≤
      FileTree.maxTablePathBytes) (fingerprint : String) :
    openIn t root directory fingerprint =
      t.openTables (dir.parts ++ ["analysis.db"]) fingerprint := by
  have hnames : ∀ n ∈ dir.parts ++ ["analysis.db"], FileTree.isPlainName n := by
    simp only [FileTree.isStraight, Bool.and_eq_true, List.all_eq_true] at hstraight
    intro n hn
    rcases List.mem_append.1 hn with hn | hn
    · exact hstraight.2 n hn
    · rw [List.mem_singleton.1 hn]
      decide
  have hplace : t.tablesPlace (dir.child "analysis.db") = .ok (dir.parts ++ ["analysis.db"]) := by
    have hresolve : t.resolve FileTree.maxTableLinks [] (dir.parts ++ ["analysis.db"]) =
        .ok ([].reverse ++ dir.parts ++ ["analysis.db"]) :=
      FileTree.resolve_of_descend hnames rfl h hlink _
    rw [FileTree.tablesPlace, PathName.child, hresolve]
    simp only [List.reverse_nil, List.nil_append, bind, Except.bind, Nat.not_lt.2 hshort, if_false]
    rfl
  unfold openIn
  rw [hdir]
  dsimp only
  rw [FileTree.run_ensureDirectory_of_entryAt hstraight h]
  dsimp only
  rw [hplace]

end AnalysisCache

end ConstGraph
