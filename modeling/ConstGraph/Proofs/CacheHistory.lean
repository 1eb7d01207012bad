import ConstGraph.Proofs.CacheEntries
import ConstGraph.Proofs.CacheFile
import Mathlib.Data.List.Induction
import Mathlib.Data.List.Nodup

/-!
# A cache over its whole life

A cache is opened, results are stored in it and forgotten, it is closed and
opened again under other settings, and the files around it change all the
while (`History`). What it holds then is a map: an entry for each file whose
results were stored while the file was there, and to which nothing has
happened since (`LastMade`).

`history_actsAsMap` says that this is all one can see of it. A result is
got exactly if the file is there, has an entry, and the entry was made
under the present fingerprint when the file had its present time and size;
the two tables hold the same files under the same keys; and what is counted
are the entries. The proof is by induction over the history: after each
step the file of the cache holds the tables of the entries (`Keeps`).
-/

namespace ConstGraph

/-! ## Events and entries -/

/-- What happens to the entries of a cache. -/
inductive CacheEvent where
  /-- Results of a file are stored; in this tree, under this fingerprint. -/
  | stored (p : PathName) (r : WalkResult) (t : FileTree) (fingerprint : String)
  /-- The results of a file are forgotten. -/
  | forgotten (p : PathName)
  /-- All results are forgotten. -/
  | cleared

namespace CacheEvent

/-- The event makes this entry: the results of the file are stored while it
is there. -/
def Makes : CacheEvent → CacheEntry → Prop
  | stored p r t fingerprint, x =>
    p.text = x.file ∧ t.find true p = .ok x.found ∧ fingerprint = x.fingerprint ∧ r = x.result
  | _, _ => False

/-- The event affects the entry of a file. To store results of a file that
is not there does not. -/
def Affects : CacheEvent → String → Prop
  | stored p _ t _, file => p.text = file ∧ ∃ found, t.find true p = .ok found
  | forgotten p, file => p.text = file
  | cleared, _ => True

/-- The entries after an event. -/
def apply (xs : List CacheEntry) : CacheEvent → List CacheEntry
  | stored p r t fingerprint =>
    match t.find true p with
    | .ok found => xs.filter (·.file != p.text) ++ [⟨p.text, fingerprint, found, r⟩]
    | .error _ => xs
  | forgotten p => xs.filter (·.file != p.text)
  | cleared => []

variable {e : CacheEvent} {xs : List CacheEntry} {x : CacheEntry}

theorem mem_apply : x ∈ e.apply xs ↔ e.Makes x ∨ (x ∈ xs ∧ ¬ e.Affects x.file) := by
  cases e with
  | stored p r t fingerprint =>
    cases hfind : t.find true p with
    | error e => simp [apply, Makes, Affects, hfind]
    | ok found =>
      have hmade : x = ⟨p.text, fingerprint, found, r⟩ ↔
          p.text = x.file ∧ found = x.found ∧ fingerprint = x.fingerprint ∧ r = x.result := by
        constructor
        · rintro rfl
          exact ⟨rfl, rfl, rfl, rfl⟩
        · obtain ⟨file, fingerprint', found', r'⟩ := x
          rintro ⟨rfl, rfl, rfl, rfl⟩
          rfl
      simp only [apply, hfind, List.mem_append, List.mem_filter, List.mem_singleton, hmade, Makes,
        Affects, Except.ok.injEq, bne_iff_ne, exists_eq', and_true, Ne, eq_comm (a := x.file)]
      exact or_comm
  | forgotten p => simp [apply, Makes, Affects, eq_comm (a := x.file)]
  | cleared => simp [apply, Makes, Affects]

theorem nodup_apply (h : (xs.map (·.file)).Nodup) (e : CacheEvent) :
    ((e.apply xs).map (·.file)).Nodup := by
  have hfilter : ∀ file, ((xs.filter (·.file != file)).map (·.file)).Nodup :=
    fun file => h.sublist (List.filter_sublist.map _)
  cases e with
  | stored p r t fingerprint =>
    cases hfind : t.find true p with
    | error e => simpa [apply, hfind] using h
    | ok found =>
      simp only [apply, hfind, List.map_append]
      refine List.nodup_append.mpr ⟨hfilter _, List.nodup_singleton _, ?_⟩
      rintro file hfile other hother rfl
      obtain ⟨x, hx, rfl⟩ := List.mem_map.mp hfile
      obtain ⟨-, hne⟩ := List.mem_filter.mp hx
      exact (bne_iff_ne.mp hne) (List.mem_singleton.mp hother)
  | forgotten p => exact hfilter _
  | cleared => exact List.nodup_nil

end CacheEvent

/-- The last event to affect the file of an entry made this entry. -/
def LastMade (events : List CacheEvent) (x : CacheEntry) : Prop :=
  ∃ before e after, events = before ++ e :: after ∧ e.Makes x ∧ ∀ e' ∈ after, ¬ e'.Affects x.file

/-- The entries after some events. -/
def liveEntries (events : List CacheEvent) : List CacheEntry := events.foldl CacheEvent.apply []

theorem liveEntries_concat (events : List CacheEvent) (e : CacheEvent) :
    liveEntries (events ++ [e]) = e.apply (liveEntries events) := by
  rw [liveEntries, List.foldl_append]
  rfl

theorem lastMade_concat {events : List CacheEvent} {e : CacheEvent} {x : CacheEntry} :
    LastMade (events ++ [e]) x ↔ e.Makes x ∨ (LastMade events x ∧ ¬ e.Affects x.file) := by
  constructor
  · rintro ⟨before, made, after, hsplit, hmakes, hafter⟩
    rcases List.eq_nil_or_concat' after with rfl | ⟨after, last, rfl⟩
    · obtain ⟨-, hlast⟩ := List.append_inj' hsplit rfl
      exact .inl (List.singleton_inj.mp hlast ▸ hmakes)
    · rw [← List.cons_append, ← List.append_assoc] at hsplit
      obtain ⟨rfl, hlast⟩ := List.append_inj' hsplit rfl
      obtain rfl := List.singleton_inj.mp hlast
      refine .inr ⟨⟨before, made, after, rfl, hmakes, fun e' he' => ?_⟩, ?_⟩
      · exact hafter e' (List.mem_append_left _ he')
      · exact hafter e (List.mem_append_right _ (List.mem_singleton_self e))
  · rintro (hmakes | ⟨⟨before, made, after, rfl, hmakes, hafter⟩, hnot⟩)
    · exact ⟨events, e, [], rfl, hmakes, by simp⟩
    · refine ⟨before, made, after ++ [e], by simp, hmakes, fun e' he' => ?_⟩
      rcases List.mem_append.mp he' with he' | he'
      · exact hafter e' he'
      · exact List.mem_singleton.mp he' ▸ hnot

/-- **The entries are those made last.** -/
theorem mem_liveEntries {events : List CacheEvent} {x : CacheEntry} :
    x ∈ liveEntries events ↔ LastMade events x := by
  induction events using List.reverseRecOn with
  | nil =>
    have hnone : ¬ LastMade [] x := by
      rintro ⟨before, e, after, hsplit, -⟩
      simp at hsplit
    simpa [liveEntries] using hnone
  | append_singleton events e ih =>
    rw [lastMade_concat, ← ih, ← CacheEvent.mem_apply, liveEntries_concat]

theorem nodup_liveEntries (events : List CacheEvent) :
    ((liveEntries events).map (·.file)).Nodup := by
  induction events using List.reverseRecOn with
  | nil => exact List.nodup_nil
  | append_singleton events e ih =>
    rw [liveEntries_concat]
    exact CacheEvent.nodup_apply ih e

/-! ## Opening again -/

/-- A new entry leaves the files there are where they are. -/
theorem FileEntry.descend_insert_file {e x : FileEntry} {name : String} {now : Moment}
    {content : FileContent} {number : Nat} {changed : Moment} (outer place : Place)
    (h : e.descend place = some (.file content number changed)) :
    (e.modify (.insert now name x) outer).descend place = some (.file content number changed) := by
  induction outer generalizing e place with
  | nil =>
    rw [modify]
    cases place with
    | nil =>
      obtain rfl : e = .file content number changed := by simpa using h
      rfl
    | cons first rest =>
      cases e with
      | directory entries changed' =>
        rw [descend_cons, child?, FileEntry.entries] at h
        cases hchild : entries.lookup first with
        | none => simp [hchild] at h
        | some inner =>
          rw [hchild] at h
          rw [insert, descend_cons, child?, FileEntry.entries,
            List.lookup_append, hchild]
          exact h
      | _ => exact h
  | cons first outer ih =>
    cases e with
    | directory entries changed' =>
      rw [modify]
      cases place with
      | nil => simp at h
      | cons next rest =>
        rw [descend_cons, child?, FileEntry.entries] at h ⊢
        rw [lookup_replace]
        by_cases hnext : next = first
        · rw [if_pos hnext]
          obtain ⟨inner, hinner, hrest⟩ := Option.bind_eq_some_iff.mp h
          rw [hinner]
          exact ih rest hrest
        · rw [if_neg hnext]
          exact h
    | _ => exact h

namespace AnalysisCache

variable {t t' : FileTree} {c c' : AnalysisCache}

theorem place_openTables {place : Place} {fingerprint : String}
    (h : t.openTables place fingerprint = (t', .ok c')) : c'.place = place := by
  unfold FileTree.openTables at h
  dsimp only at h
  repeat' split at h
  all_goals cases h
  all_goals rfl

/-- **Opening a cache again** finds the tables that its file holds. -/
theorem InStep.reopen {root : PathName} {directory fingerprint : String} (h : c.InStep t)
    (hopen : openIn t root directory fingerprint = (t', .ok c')) (hplace : c'.place = c.place) :
    c' = { c with fingerprint := fingerprint } ∧ c'.InStep t' := by
  obtain ⟨changed, hfile⟩ := h.stored
  have hmade := FileTree.ensureDirectory_cases (root.join (.ofString directory)) t
  unfold openIn at hopen
  dsimp only at hopen
  rcases hrun : (FileChange.ensureDirectory (root.join (.ofString directory))).run.run t with
    ⟨outcome, made⟩
  rw [hrun] at hmade hopen
  -- a directory may have been made, but the file of the tables still stands
  have hstill : made.entryAt c.place = some (.file (.tables c.tables) c.number changed) := by
    rcases hmade with rfl | ⟨place, -, rfl⟩
    · exact hfile
    · exact FileEntry.descend_insert_file _ _ hfile
  cases outcome with
  | error e => cases hopen
  | ok u =>
    dsimp only at hopen
    split at hopen
    · cases hopen
    · next place _ =>
      obtain rfl : place = c.place := (place_openTables hopen).symm.trans hplace
      unfold FileTree.openTables at hopen
      rw [hstill] at hopen
      dsimp only at hopen
      split at hopen
      · cases hopen
      · next hfree =>
        cases hopen
        refine ⟨?_, rfl, ⟨changed, hstill⟩, by simpa using hfree⟩
        rw [← h.isOpen]

/-! ## One step -/

theorem set_of_missing {p : PathName} {e : FileError} {r : WalkResult Json Json}
    (hfound : t.find true p = .error e) : (c.set t p r).1 = (c, t) := by
  rw [set, FileTree.cacheKey?_of_missing hfound]
  cases e <;> rfl

theorem InStep.invalidate (h : c.InStep t) (p : PathName) :
    ∃ t', c.invalidate t p = .ok ({ c with tables := c.tables.erase p.text }, t') ∧
      ({ c with tables := c.tables.erase p.text } : AnalysisCache).InStep t' := by
  cases hmentions : c.tables.mentions p.text with
  | true =>
    refine ⟨_, ?_, h.commit _⟩
    simp only [AnalysisCache.invalidate, updateIf, h.read, bind, Except.bind, hmentions, if_true,
      update, h.write]
    rfl
  | false =>
    have hsame := CacheTables.erase_eq_self hmentions
    obtain ⟨changed, hfile⟩ := h.stored
    have hfinish : c.finish t = t := by
      simp [finish, hfile]
    refine ⟨t, ?_, ?_⟩
    · simp only [AnalysisCache.invalidate, updateIf, h.read, bind, Except.bind, hmentions,
        Bool.false_eq_true, if_false, hfinish, hsame]
      rfl
    · rw [hsame]
      exact h

theorem InStep.clear (h : c.InStep t) :
    ∃ t', c.clear t = .ok ({ c with tables := {} }, t') ∧
      ({ c with tables := {} } : AnalysisCache).InStep t' := by
  refine ⟨_, ?_, h.commit {}⟩
  simp only [AnalysisCache.clear, update, h.write, bind, Except.bind]
  rfl

/-! ## Whole lives -/

/-- The life of a cache: what has happened to its entries, and the cache
and the tree as they are now. Between two steps the files may change in any
way that leaves the file of the tables alone, and the cache may be opened
again, under any fingerprint, by any path that leads to that file. -/
inductive History : List CacheEvent → AnalysisCache → FileTree → Prop where
  /-- The cache is opened and holds nothing. -/
  | opened {t₀ t : FileTree} {root : PathName} {directory fingerprint : String}
      {c : AnalysisCache} :
      t₀.top.Proper → openIn t₀ root directory fingerprint = (t, .ok c) → c.tables = {} →
      History [] c t
  /-- Results are stored, with numbers that can be written. -/
  | set {events : List CacheEvent} {c : AnalysisCache} {t : FileTree} (p : PathName)
      (r : WalkResult) :
      History events c t → r.IsShort →
      History (events ++ [.stored p r t c.fingerprint]) (c.set t p r.values).1.1
        (c.set t p r.values).1.2
  /-- The results of a file are forgotten. -/
  | invalidate {events : List CacheEvent} {c c' : AnalysisCache} {t t' : FileTree}
      (p : PathName) :
      History events c t → c.invalidate t p = .ok (c', t') →
      History (events ++ [.forgotten p]) c' t'
  /-- All results are forgotten. -/
  | clear {events : List CacheEvent} {c c' : AnalysisCache} {t t' : FileTree} :
      History events c t → c.clear t = .ok (c', t') → History (events ++ [.cleared]) c' t'
  /-- The cache is opened again. -/
  | reopen {events : List CacheEvent} {c c' : AnalysisCache} {t t' : FileTree} {root : PathName}
      {directory fingerprint : String} :
      History events c t → openIn t root directory fingerprint = (t', .ok c') →
      c'.place = c.place → History events c' t'
  /-- Files change, but not that of the tables. -/
  | edit {events : List CacheEvent} {c : AnalysisCache} {t t' : FileTree} :
      History events c t → t'.entryAt c.place = t.entryAt c.place →
      t'.isJournalBlocked c.place = false → History events c t'

/-- The file of the cache holds the tables of its entries. -/
structure Keeps (events : List CacheEvent) (c : AnalysisCache) (t : FileTree) : Prop where
  /-- The file holds the tables of the cache. -/
  inStep : c.InStep t
  /-- The tables are those of the entries. -/
  tables : c.tables = .ofEntries (liveEntries events)
  /-- The results of all entries can be stored. -/
  storable : ∀ x ∈ liveEntries events, x.result.values.isStorable

/-- **After every step the file of a cache holds the tables of its
entries.** -/
theorem History.keeps {events : List CacheEvent} (h : History events c t) : Keeps events c t := by
  induction h with
  | @opened t₀ t root directory fingerprint c hproper hopen hempty =>
    have hopened := openIn_opened hproper root directory fingerprint
    rw [hopen] at hopened
    exact ⟨(hopened.inStep _ rfl).2, hempty, by simp [liveEntries]⟩
  | @set events c t p r _ hshort ih =>
    have hr := hshort.isStorable
    cases hfind : t.find true p with
    | error e =>
      have hsame : liveEntries (events ++ [.stored p r t c.fingerprint]) = liveEntries events := by
        rw [liveEntries_concat, CacheEvent.apply, hfind]
      rw [set_of_missing hfind]
      exact ⟨ih.inStep, hsame ▸ ih.tables, hsame ▸ ih.storable⟩
    | ok found =>
      have hlive : liveEntries (events ++ [.stored p r t c.fingerprint]) =
          (liveEntries events).filter (·.file != p.text) ++
            [⟨p.text, c.fingerprint, found, r⟩] := by
        rw [liveEntries_concat, CacheEvent.apply, hfind]
      simp only [ih.inStep.set hfind, hr, if_true]
      refine ⟨ih.inStep.commit _, ?_, ?_⟩
      · rw [hlive, ih.tables]
        exact CacheTables.insert_ofEntries _ ⟨p.text, c.fingerprint, found, r⟩
      · rw [hlive]
        intro x hx
        rcases List.mem_append.mp hx with hx | hx
        · exact ih.storable x (List.mem_of_mem_filter hx)
        · rw [List.mem_singleton.mp hx]
          exact hr
  | @invalidate events c c' t t' p _ hdone ih =>
    obtain ⟨t₁, hok, hstep⟩ := ih.inStep.invalidate p
    cases hdone.symm.trans hok
    refine ⟨hstep, ?_, ?_⟩
    · rw [liveEntries_concat, ih.tables, CacheTables.erase_ofEntries]
      rfl
    · rw [liveEntries_concat]
      exact fun x hx => ih.storable x (List.mem_of_mem_filter hx)
  | @clear events c c' t t' _ hdone ih =>
    obtain ⟨t₁, hok, hstep⟩ := ih.inStep.clear
    cases hdone.symm.trans hok
    refine ⟨hstep, ?_, ?_⟩
    · rw [liveEntries_concat]
      rfl
    · rw [liveEntries_concat]
      exact fun x hx => absurd hx List.not_mem_nil
  | reopen _ hopen hplace ih =>
    obtain ⟨rfl, hstep⟩ := ih.inStep.reopen hopen hplace
    exact ⟨hstep, ih.tables, ih.storable⟩
  | edit _ hfile hfree ih =>
    obtain ⟨changed, hstored⟩ := ih.inStep.stored
    exact ⟨⟨ih.inStep.isOpen, ⟨changed, hfile.trans hstored⟩, hfree⟩, ih.tables, ih.storable⟩

/-- A cache is a map from files to results. -/
structure ActsAsMap (events : List CacheEvent) (c : AnalysisCache) (t : FileTree) : Prop where
  /-- A result is got exactly if the file is there and has an entry, and
  the entry was made under this fingerprint when the file had this time and
  this size. It is the result of the entry. -/
  got : ∀ p v, c.get? t p = .ok (some v) ↔
    ∃ now x, t.find true p = .ok now ∧ LastMade events x ∧ x.file = p.text ∧
      x.fingerprint = c.fingerprint ∧ x.found.changed.stamp = now.changed.stamp ∧
      x.found.size = now.size ∧ v = x.result.values
  /-- There is always an answer, unless the path can be none. -/
  answers : ∀ p, t.find true p ≠ .error .nullCharacter → ∃ v?, c.get? t p = .ok v?
  /-- The tables are read from the file. -/
  read : c.read t = .ok c.tables
  /-- The two tables hold the same files with the same keys. -/
  paired : c.tables.keys.map (fun row => (row.file, row.key)) =
    c.tables.results.map fun row => (row.file, row.key)
  /-- No file has two rows. -/
  once : (c.tables.keys.map (·.file)).Nodup
  /-- What is counted are the entries, and the records in them. -/
  counted : ∃ live : List CacheEntry, (∀ x, x ∈ live ↔ LastMade events x) ∧
    (live.map (·.file)).Nodup ∧
    c.stats t = .ok ⟨live.length, (live.flatMap (·.result.definitions)).length,
      (live.flatMap (·.result.relations)).length⟩
  /-- Results can be stored, unless the path can be none. -/
  stores : ∀ p (r : WalkResult), r.IsShort → t.find true p ≠ .error .nullCharacter →
    (c.set t p r.values).2 = .ok ()
  /-- The results of any file can be forgotten. -/
  forgets : ∀ p, ∃ next, c.invalidate t p = .ok next
  /-- All results can be forgotten. -/
  clears : ∃ next, c.clear t = .ok next

/-- The entry of a file is found by its path. -/
theorem find?_liveEntries {events : List CacheEvent} {x : CacheEntry} {file : String} :
    (liveEntries events).find? (·.file == file) = some x ↔ LastMade events x ∧ x.file = file := by
  rw [← mem_liveEntries]
  constructor
  · intro hfind
    have hfile : x.file = file := by simpa using List.find?_some hfind
    exact ⟨List.mem_of_find?_eq_some hfind, hfile⟩
  · rintro ⟨hmem, rfl⟩
    have hsome : ((liveEntries events).find? (·.file == x.file)).isSome :=
      List.find?_isSome.mpr ⟨x, hmem, by simp⟩
    obtain ⟨y, hy⟩ := Option.isSome_iff_exists.mp hsome
    have hfile : y.file = x.file := by simpa using List.find?_some hy
    rw [hy, List.inj_on_of_nodup_map (nodup_liveEntries events) (List.mem_of_find?_eq_some hy)
      hmem hfile]

/-- Of a file that is there the cache gives the result of its entry, if the
entry has the key of the file. -/
theorem Keeps.get?_of_found {events : List CacheEvent} (h : Keeps events c t) {p : PathName}
    {now : FileEntry} (hfind : t.find true p = .ok now) :
    c.get? t p = .ok ((((liveEntries events).find? (·.file == p.text)).filter
      (·.key == ⟨now.changed.stamp, now.size, c.fingerprint⟩)).map (·.result.values)) := by
  have hget := CacheTables.get?_ofEntries h.storable p.text
    ⟨now.changed.stamp, now.size, c.fingerprint⟩
  rw [← h.tables] at hget
  simp only [h.inStep.get?, FileTree.cacheKey?, hfind, hget]
  rfl

/-- Of a file that is not there the cache gives nothing. -/
theorem get?_of_missing {p : PathName} {e : FileError} (hfind : t.find true p = .error e) :
    c.get? t p = if e = .nullCharacter then .error (.file .nullCharacter) else .ok none := by
  rw [get?, FileTree.cacheKey?_of_missing hfind]
  split <;> rfl

/-- **What is got from a cache.** -/
theorem Keeps.get?_eq_some {events : List CacheEvent} (h : Keeps events c t) (p : PathName)
    (v : WalkResult Json Json) :
    c.get? t p = .ok (some v) ↔
      ∃ now x, t.find true p = .ok now ∧ LastMade events x ∧ x.file = p.text ∧
        x.fingerprint = c.fingerprint ∧ x.found.changed.stamp = now.changed.stamp ∧
        x.found.size = now.size ∧ v = x.result.values := by
  cases hfind : t.find true p with
  | error e =>
    rw [get?_of_missing hfind]
    split <;> simp
  | ok now =>
    have hkey : ∀ x : CacheEntry, x.key = ⟨now.changed.stamp, now.size, c.fingerprint⟩ ↔
        x.fingerprint = c.fingerprint ∧ x.found.changed.stamp = now.changed.stamp ∧
          x.found.size = now.size := by
      intro x
      simp only [CacheEntry.key, CacheKey.mk.injEq]
      tauto
    rw [h.get?_of_found hfind]
    simp only [Except.ok.injEq, Option.map_eq_some_iff, Option.filter_eq_some_iff,
      find?_liveEntries, beq_iff_eq, hkey]
    constructor
    · rintro ⟨x, ⟨⟨hmade, hfile⟩, hfingerprint, hstamp, hsize⟩, rfl⟩
      exact ⟨now, x, rfl, hmade, hfile, hfingerprint, hstamp, hsize, rfl⟩
    · rintro ⟨_, x, rfl, hmade, hfile, hfingerprint, hstamp, hsize, rfl⟩
      exact ⟨x, ⟨⟨hmade, hfile⟩, hfingerprint, hstamp, hsize⟩, rfl⟩

theorem Keeps.stats {events : List CacheEvent} (h : Keeps events c t) :
    c.stats t = .ok ⟨(liveEntries events).length,
      ((liveEntries events).flatMap (·.result.definitions)).length,
      ((liveEntries events).flatMap (·.result.relations)).length⟩ := by
  have hstats := CacheTables.stats_ofEntries h.storable
  rw [← h.tables] at hstats
  simp only [AnalysisCache.stats, h.inStep.read, bind, Except.bind, hstats]
  rfl

/-- Results that can be stored are. -/
theorem Keeps.set {events : List CacheEvent} (h : Keeps events c t) {p : PathName}
    {r : WalkResult} (hr : r.values.isStorable) (hnull : t.find true p ≠ .error .nullCharacter) :
    (c.set t p r.values).2 = .ok () := by
  cases hfind : t.find true p with
  | error e =>
    have he : e ≠ .nullCharacter := fun he => hnull (he ▸ hfind)
    cases e <;> simp_all [AnalysisCache.set, FileTree.cacheKey?]
  | ok found => simp only [h.inStep.set hfind, hr, if_true]

/-- **A cache acts as a map over its whole life.** What is got from it is
what was stored, to the last field; and where the keys are kept as texts, to
compare two texts is to compare the keys. -/
theorem history_actsAsMap {events : List CacheEvent} (h : History events c t) :
    ActsAsMap events c t ∧ Function.Injective (WalkResult.values : WalkResult → _) ∧
      ∀ print : Stamp → String, Function.Injective print → (∀ s, ':' ∉ (print s).toList) →
        ∀ k k' : CacheKey, k.text print = k'.text print ↔ k = k' := by
  have hkeeps := h.keeps
  refine ⟨?_, WalkResult.values_injective,
    fun print hprint hcolon k k' => CacheKey.text_inj hprint hcolon⟩
  exact {
    got := hkeeps.get?_eq_some
    answers := by
      intro p hnull
      cases hfind : t.find true p with
      | error e =>
        have he : e ≠ .nullCharacter := fun he => hnull (he ▸ hfind)
        exact ⟨none, (get?_of_missing hfind).trans (if_neg he)⟩
      | ok now => exact ⟨_, hkeeps.get?_of_found hfind⟩
    read := hkeeps.inStep.read
    paired := by
      rw [hkeeps.tables, CacheTables.ofEntries, List.map_map, List.map_map]
      rfl
    once := by
      rw [hkeeps.tables, CacheTables.ofEntries, List.map_map]
      exact nodup_liveEntries events
    counted := ⟨liveEntries events, fun _ => mem_liveEntries, nodup_liveEntries events,
      hkeeps.stats⟩
    stores := fun p r hr hnull => hkeeps.set hr.isStorable hnull
    forgets := fun p => (hkeeps.inStep.invalidate p).imp' _ fun _ hok => hok.1
    clears := hkeeps.inStep.clear.imp' _ fun _ hok => hok.1 }

/-! ## A result that is stored -/

namespace Shelf

/-- A tree with a source and a cache of it. -/
def tree (tables : CacheTables) (clock : Nat) : FileTree :=
  ⟨.directory [("a.rb", .file (.text "class A\nend\n") 0 (.tick 0)),
    ("cache", .directory [("analysis.db", .file (.tables tables) 1 (.tick clock))]
      (.tick (clock + 1)))] (.tick 0), clock + 2⟩

/-- The source. -/
def source : PathName := ⟨"/", ["a.rb"]⟩

/-- The cache, open. -/
def cache (tables : CacheTables) (fingerprint : String) : AnalysisCache where
  place := ["cache", "analysis.db"]
  number := 1
  tables := tables
  fingerprint := fingerprint

/-- What is found in the source. -/
def oneClass : WalkResult := ⟨[⟨["A"], .ofClass, "/a.rb", 1, 2⟩], []⟩

theorem proper_tree : (tree {} 1).top.Proper := by
  refine .directory (by decide) fun x hx => ?_
  rcases List.mem_pair.mp hx with rfl | rfl
  · exact .file
  · refine .directory (List.nodup_singleton _) fun y hy => ?_
    rw [List.mem_singleton.mp hy]
    exact .file

theorem openIn_tree (tables : CacheTables) (clock : Nat) (fingerprint : String) :
    openIn (tree tables clock) ⟨"/", []⟩ "cache" fingerprint =
      (tree tables clock, .ok (cache tables fingerprint)) := by
  have hdir : PathName.join ⟨"/", []⟩ (.ofString "cache") = ⟨"/", ["cache"]⟩ := rfl
  rw [openIn_of_entryAt hdir (by decide) rfl (by simp) (by decide)]
  rfl

theorem find_tree (tables : CacheTables) (changed : Nat) :
    (tree tables changed).find true source = .ok (.file (.text "class A\nend\n") 0 (.tick 0)) :=
  FileTree.find_of_entryAt (by decide) rfl (by simp) true

theorem commit_tree (tables : CacheTables) (fingerprint : String) :
    (cache tables fingerprint).commit (tree {} 1) = tree tables 3 :=
  rfl

theorem isShort_oneClass : oneClass.IsShort := by
  refine ⟨fun d hd => ?_, fun s hs => absurd hs List.not_mem_nil⟩
  rw [List.mem_singleton.mp hd]
  exact ⟨isOverlong_eq_false (by decide), isOverlong_eq_false (by decide)⟩

/-- What was stored is got back under the same fingerprint, and not under
another. -/
theorem get?_oneClass :
    ∃ events c c' t, History events c t ∧ History events c' t ∧
      c.get? t source = .ok (some oneClass.values) ∧ c'.get? t source = .ok none := by
  have hopened : History [] (cache {} "1") (tree {} 1) :=
    .opened proper_tree (openIn_tree {} 1 "1") rfl
  have hstored := hopened.set source oneClass isShort_oneClass
  obtain ⟨tables, hset⟩ : ∃ tables, ((cache {} "1").set (tree {} 1) source oneClass.values).1 =
      (cache tables "1", tree tables 3) := by
    simp only [hopened.keeps.inStep.set (find_tree {} 1), isShort_oneClass.isStorable, if_true]
    exact ⟨_, Prod.ext rfl (commit_tree _ _)⟩
  rw [hset] at hstored
  have hother := hstored.reopen (openIn_tree tables 3 "2") rfl
  refine ⟨_, cache tables "1", cache tables "2", tree tables 3, hstored, hother, ?_, ?_⟩
  · exact ((history_actsAsMap hstored).1.got source _).mpr ⟨_,
      ⟨source.text, "1", .file (.text "class A\nend\n") 0 (.tick 0), oneClass⟩, find_tree tables 3,
      ⟨[], _, [], rfl, ⟨rfl, find_tree {} 1, rfl, rfl⟩, by simp⟩, rfl, rfl, rfl, rfl, rfl⟩
  · have hmap := (history_actsAsMap hother).1
    obtain ⟨v?, hv⟩ := hmap.answers source (by simp [find_tree])
    cases v? with
    | none => exact hv
    | some v =>
      obtain ⟨now, x, -, hmade, -, hfingerprint, -⟩ := (hmap.got source v).mp hv
      rcases lastMade_concat.mp hmade with ⟨-, -, hone, -⟩ | ⟨⟨_, _, _, hnil, -⟩, -⟩
      · have hsame : ("1" : String) = "2" := hone.trans hfingerprint
        exact absurd hsame (by decide)
      · simp at hnil

end Shelf

end AnalysisCache

end ConstGraph
