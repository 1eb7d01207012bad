import ConstGraph.Project
import ConstGraph.Proofs.CacheFile

/-!
# Trees with the same files

Writing to a cache changes the content and the time of its file, and the
times of directories. `FileTree.bare` is a tree without these, and two
trees have the `SameFiles` if they are alike without them.

Nothing a build does with its sources shows the difference: the search
finds the same paths (`discover_bare`) and reads the same sources
(`source_bare`). What a cache writes leaves the files the same
(`sameFiles_putTables`).
-/

namespace ConstGraph

namespace FileEntry

/-! ## Entries without their caches -/

/-- The entry is the file of a cache. -/
def isTables : FileEntry → Bool
  | file (.tables _) _ _ => true
  | _ => false

mutual

/-- The entry without what writing to a cache changes. -/
def bare : FileEntry → FileEntry
  | file (.tables _) number _ => file (.tables {}) number (.tick 0)
  | file content number changed => file content number changed
  | directory entries _ => directory (bareAll entries) (.tick 0)
  | link target => link target

/-- Entries without what writing to a cache changes. -/
def bareAll : List (String × FileEntry) → List (String × FileEntry)
  | [] => []
  | (name, e) :: rest => (name, e.bare) :: bareAll rest

end

variable {e e' : FileEntry} {entries : List (String × FileEntry)}

theorem bareAll_eq_map (entries : List (String × FileEntry)) :
    bareAll entries = entries.map fun x => (x.1, x.2.bare) := by
  induction entries with
  | nil => rfl
  | cons x entries ih => rw [bareAll, ih, List.map_cons]

theorem bare_file {content : FileContent} (h : ∀ tables, content ≠ .tables tables) (number : Nat)
    (changed : Moment) : (file content number changed).bare = file content number changed := by
  cases content with
  | tables tables => exact absurd rfl (h tables)
  | _ => rfl

theorem eq_file_of_bare {content : FileContent} {number : Nat} {changed : Moment}
    (h : ∀ tables, content ≠ .tables tables) (he : e.bare = file content number changed) :
    e = file content number changed := by
  cases e with
  | file found n c =>
    cases found with
    | tables tables =>
      injection he with hfound
      exact absurd hfound.symm (h {})
    | _ => exact he
  | _ => cases he

@[simp] theorem isDirectory_bare (e : FileEntry) : e.bare.isDirectory = e.isDirectory := by
  cases e with
  | file content number changed => cases content <;> rfl
  | _ => rfl

@[simp] theorem isFile_bare (e : FileEntry) : e.bare.isFile = e.isFile := by
  cases e with
  | file content number changed => cases content <;> rfl
  | _ => rfl

theorem entries_bare (e : FileEntry) : e.bare.entries = bareAll e.entries := by
  cases e with
  | file content number changed => cases content <;> rfl
  | _ => rfl

theorem lookup_bareAll (name : String) (entries : List (String × FileEntry)) :
    (bareAll entries).lookup name = (entries.lookup name).map bare := by
  induction entries with
  | nil => rfl
  | cons x entries ih =>
    obtain ⟨n, e⟩ := x
    rw [bareAll, List.lookup_cons, List.lookup_cons, ih]
    cases name == n <;> rfl

theorem child?_bare (e : FileEntry) (name : String) :
    e.bare.child? name = (e.child? name).map bare := by
  rw [child?, entries_bare, lookup_bareAll, child?]

mutual

theorem directoriesBelow_bare : ∀ e : FileEntry, e.bare.directoriesBelow = e.directoriesBelow
  | file (.tables _) _ _ => rfl
  | file (.source _ _) _ _ => rfl
  | file (.zeros _) _ _ => rfl
  | file (.text _) _ _ => rfl
  | link _ => rfl
  | directory entries _ => by
    rw [bare, directoriesBelow, directoriesBelow, directoriesAmong_bareAll entries]

theorem directoriesAmong_bareAll :
    ∀ entries, directoriesAmong (bareAll entries) = directoriesAmong entries
  | [] => rfl
  | (name, e) :: rest => by
    rw [bareAll, directoriesAmong, directoriesAmong, directoriesBelow_bare e,
      directoriesAmong_bareAll rest, isDirectory_bare]

end

/-! ## Changes that do not show -/

/-- A change that does not show at its place does not show at all. -/
theorem bare_modify {f : FileEntry → FileEntry} {place : Place} (h : e.Proper)
    (hf : ∀ x, e.descend place = some x → (f x).bare = x.bare) :
    (modify f place e).bare = e.bare := by
  induction place generalizing e with
  | nil => exact hf e (descend_nil e)
  | cons name place ih =>
    cases h with
    | file => rfl
    | link => rfl
    | @directory entries changed hnodup hentries =>
      have hsame : bareAll (replace name (modify f place) entries) = bareAll entries := by
        rw [bareAll_eq_map, bareAll_eq_map, replace, List.map_map]
        refine List.map_congr_left fun x hx => ?_
        obtain ⟨n, y⟩ := x
        by_cases hn : n = name
        · subst hn
          have hy : entries.lookup n = some y := lookup_eq_some_of_mem hnodup hx
          have hbare : (modify f place y).bare = y.bare := by
            refine ih (hentries (n, y) hx) fun z hz => hf z ?_
            rw [descend_cons, child?, FileEntry.entries, hy]
            exact hz
          simp [hbare]
        · simp [hn]
      rw [modify, bare, bare, hsame]

/-- The time of what a cache stands in does not show. -/
theorem bare_withTime {rest : Place} (h : e.descend rest = some e') (he : e'.isTables)
    (changed : Moment) : (e.withTime changed).bare = e.bare := by
  cases e with
  | file content number before =>
    cases rest with
    | nil =>
      cases h
      cases content with
      | tables tables => rfl
      | _ => cases he
    | cons name rest => cases h
  | _ => rfl

end FileEntry

namespace FileTree

open FileEntry (bare bareAll)

/-! ## Walks -/

/-- The tree without what writing to a cache changes. -/
def bare (t : FileTree) : FileTree := ⟨t.top.bare, 0⟩

/-- A spot without what writing to a cache changes. -/
def bareSpot (s : Spot) : Spot := { s with entry := s.entry.map FileEntry.bare }

variable {t t' : FileTree} {p : PathName}

theorem here_bare (t : FileTree) (trail : Trail) :
    t.bare.here (bareAll trail) = (t.here trail).bare := by
  cases trail <;> rfl

theorem place_bareAll (trail : Trail) : Trail.place (bareAll trail) = Trail.place trail := by
  rw [Trail.place, FileEntry.bareAll_eq_map, List.map_map]
  rfl

theorem tail_bareAll (trail : Trail) : (bareAll trail).tail = bareAll trail.tail := by
  cases trail <;> rfl

/-- A walk does not see what is left out. -/
theorem walk_bare (follow slash : Bool) (links : Nat) (trail : Trail) (names : List String) :
    t.bare.walk follow slash links (bareAll trail) names =
      (t.walk follow slash links trail names).map bareSpot := by
  fun_induction walk t follow slash links trail names with
  | case1 =>
    rw [walk, here_bare, place_bareAll]
    rfl
  | case2 _ _ _ _ ih =>
    rw [walk, if_pos rfl]
    exact ih
  | case3 _ _ _ _ hdot ih =>
    rw [walk, if_neg hdot, if_pos rfl, tail_bareAll]
    exact ih
  | case4 _ _ _ _ _ hdot hdots hlong =>
    rw [walk, if_neg hdot, if_neg hdots, if_pos hlong]
    rfl
  | case5 _ _ _ _ _ hdot hdots hshort _ hchild hrest =>
    rw [walk, if_neg hdot, if_neg hdots, if_neg hshort, here_bare, FileEntry.child?_bare, hchild]
    simp only [Option.map_none, hrest, if_true, place_bareAll]
    rfl
  | case6 _ _ _ _ _ hdot hdots hshort hchild hrest =>
    rw [walk, if_neg hdot, if_neg hdots, if_neg hshort, here_bare, FileEntry.child?_bare, hchild]
    simp only [Option.map_none, hrest]
    rfl
  | case7 _ _ _ _ _ hdot hdots hshort _ _ hchild ih =>
    rw [walk, if_neg hdot, if_neg hdots, if_neg hshort, here_bare, FileEntry.child?_bare, hchild]
    exact ih
  | case8 _ _ _ _ _ hdot hdots hshort _ content _ _ hchild hrest =>
    rw [walk, if_neg hdot, if_neg hdots, if_neg hshort, here_bare, FileEntry.child?_bare, hchild]
    cases content <;> simp only [Option.map_some, FileEntry.bare, hrest, if_true, place_bareAll] <;>
      rfl
  | case9 _ _ _ _ _ hdot hdots hshort content _ _ hchild hrest =>
    rw [walk, if_neg hdot, if_neg hdots, if_neg hshort, here_bare, FileEntry.child?_bare, hchild]
    cases content <;> simp only [Option.map_some, FileEntry.bare, hrest] <;> rfl
  | case10 _ _ _ _ _ hdot hdots hshort _ _ hchild hrest =>
    rw [walk, if_neg hdot, if_neg hdots, if_neg hshort, here_bare, FileEntry.child?_bare, hchild]
    simp only [Option.map_some, FileEntry.bare, hrest, if_true, place_bareAll]
    rfl
  | case11 _ _ _ _ hdot hdots hshort _ hchild hrest =>
    rw [walk, if_neg hdot, if_neg hdots, if_neg hshort, here_bare, FileEntry.child?_bare, hchild]
    simp only [Option.map_some, FileEntry.bare, hrest]
    rfl
  | case12 _ _ _ _ hdot hdots hshort target hchild hrest _ ih =>
    rw [walk, if_neg hdot, if_neg hdots, if_neg hshort, here_bare, FileEntry.child?_bare, hchild]
    simp only [Option.map_some, FileEntry.bare, hrest]
    cases habs : target.absolute <;> simpa [habs, FileEntry.bareAll] using ih

theorem locate_bare (t : FileTree) (follow : Bool) (p : PathName) :
    t.bare.locate follow p = (t.locate follow p).map bareSpot := by
  unfold locate
  split
  · rfl
  split
  · rfl
  · exact walk_bare follow false maxLinks [] p.parts

theorem find_bare (t : FileTree) (follow : Bool) (p : PathName) :
    t.bare.find follow p = (t.find follow p).map FileEntry.bare := by
  unfold find
  rw [locate_bare]
  rcases t.locate follow p with e | ⟨place, entry, slash⟩
  · rfl
  · cases entry with
    | none => rfl
    | some e =>
      simp only [Except.map, bind, Except.bind, bareSpot, Option.map_some, FileEntry.isFile_bare]
      split <;> rfl

/-- What is asked of an entry, if it does not show a cache. -/
theorem ask_bare (t : FileTree) (follow : Bool) {holds : FileEntry → Bool}
    (h : ∀ e, holds e.bare = holds e) (p : PathName) :
    t.bare.ask follow holds p = t.ask follow holds p := by
  unfold ask
  rw [find_bare]
  rcases t.find follow p with e | e
  · cases e <;> rfl
  · simp only [Except.map, h]

theorem isDirectory_bare (t : FileTree) (p : PathName) : t.bare.isDirectory p = t.isDirectory p :=
  t.ask_bare true FileEntry.isDirectory_bare p

theorem isFile_bare (t : FileTree) (p : PathName) : t.bare.isFile p = t.isFile p :=
  t.ask_bare true FileEntry.isFile_bare p

theorem pathExists_bare (t : FileTree) (p : PathName) : t.bare.pathExists p = t.pathExists p :=
  t.ask_bare true (fun _ => rfl) p

theorem admits_bare (t : FileTree) (limit : SizeLimit) (p : PathName) :
    t.bare.admits limit p = t.admits limit p := by
  unfold admits
  rw [find_bare]
  rcases t.find false p with e | e
  · rfl
  · cases e with
    | file content number changed => cases content <;> rfl
    | _ => rfl

theorem source_bare (t : FileTree) (limit : SizeLimit) (p : PathName) :
    t.bare.source limit p = t.source limit p := by
  unfold source
  rw [find_bare]
  rcases t.find false p with e | e
  · rfl
  · cases e with
    | file content number changed => cases content <;> rfl
    | _ => rfl

end FileTree

/-! ## Searching -/

theorem Glob.select_bare (t : FileTree) (directoriesOnly : Bool) (parts : List GlobPart)
    (p : PathName) : select t.bare directoriesOnly parts p = select t directoriesOnly parts p := by
  induction parts generalizing p with
  | nil => rfl
  | cons part parts ih =>
    have hselect : select t.bare directoriesOnly parts = select t directoriesOnly parts := funext ih
    cases part with
    | directories =>
      rw [select, select, FileTree.find_bare, hselect]
      rcases t.find true p with e | e
      · rfl
      · simp only [Except.map, bind, Except.bind, FileEntry.directoriesBelow_bare]
    | exact name =>
      rw [select, select, FileTree.pathExists_bare, FileTree.isDirectory_bare, hselect]
    | fitting tokens =>
      rw [select, select, FileTree.find_bare, hselect]
      rcases t.find true p with e | e
      · rfl
      · simp only [Except.map, bind, Except.bind, FileEntry.entries_bare,
          FileEntry.bareAll_eq_map, List.filter_map, List.mapM_map, FileTree.isDirectory_bare]
        rfl

theorem Glob.paths_bare (g : Glob) (t : FileTree) (root : PathName) :
    g.paths t.bare root = g.paths t root := by
  rw [paths, paths, FileTree.isDirectory_bare, select_bare]

namespace Project

theorem search_bare (t : FileTree) (root : PathName) (patterns : List String) :
    search t.bare root patterns = search t root patterns := by
  induction patterns with
  | nil => rfl
  | cons pattern patterns ih => simp only [search, Glob.paths_bare, ih]

/-- The sources found do not show what a cache has written. -/
theorem discover_bare (t : FileTree) (root : PathName) (cachePath : String)
    (patterns : List String) :
    discover t.bare root cachePath patterns = discover t root cachePath patterns := by
  simp only [discover, FileTree.isFile_bare, search_bare]

end Project

/-! ## The same files -/

namespace FileTree

variable {t t' : FileTree} {p : PathName}

/-- The trees differ by what writing to a cache changes, at most. -/
def SameFiles (t t' : FileTree) : Prop := t.bare = t'.bare

namespace SameFiles

theorem admits (h : t.SameFiles t') (limit : SizeLimit) (p : PathName) :
    t.admits limit p = t'.admits limit p := by
  rw [← admits_bare t, h, admits_bare]

theorem source (h : t.SameFiles t') (limit : SizeLimit) (p : PathName) :
    t.source limit p = t'.source limit p := by
  rw [← source_bare t, h, source_bare]

theorem discover (h : t.SameFiles t') (root : PathName) (cachePath : String)
    (patterns : List String) :
    Project.discover t root cachePath patterns = Project.discover t' root cachePath patterns := by
  rw [← Project.discover_bare t, h, Project.discover_bare]

/-- A path leads to the same file, unless that is the file of a cache. -/
theorem find {follow : Bool} {content : FileContent} {number : Nat} {changed : Moment}
    (h : t.SameFiles t') (hcontent : ∀ tables, content ≠ .tables tables)
    (hfind : t.find follow p = .ok (.file content number changed)) :
    t'.find follow p = .ok (.file content number changed) := by
  have hbare : (t'.find follow p).map FileEntry.bare = .ok (.file content number changed) := by
    rw [← find_bare, ← h, find_bare, hfind]
    exact congrArg Except.ok (FileEntry.bare_file hcontent number changed)
  rcases hfound : t'.find follow p with e | e
  · rw [hfound] at hbare
    cases hbare
  · rw [hfound] at hbare
    replace hbare : e.bare = .file content number changed := Except.ok.inj hbare
    exact congrArg Except.ok (FileEntry.eq_file_of_bare hcontent hbare)

end SameFiles

/-- **What a cache writes to its file leaves the files the same.** -/
theorem sameFiles_putTables {place : Place} {tables : CacheTables} {number : Nat}
    {changed : Moment} (hproper : t.top.Proper)
    (h : t.entryAt place = some (.file (.tables tables) number changed)) (written : CacheTables) :
    (t.putTables place written).SameFiles t := by
  have hput : (t.putFile place (.tables written) t.now).top.bare = t.top.bare := by
    rw [putFile_of_entryAt h]
    refine FileEntry.bare_modify hproper fun x hx => ?_
    cases h.symm.trans hx
    rfl
  have hproper' : (t.putFile place (.tables written) t.now).top.Proper := by
    rw [putFile_of_entryAt h]
    refine hproper.modify fun x hx _ => ?_
    cases h.symm.trans hx
    exact .file
  have hentry : (t.putFile place (.tables written) t.now).top.descend place =
      some (.file (.tables written) number t.now) := by
    rw [entryAt] at h
    rw [putFile_of_entryAt h, modify, FileEntry.descend_modify, h]
    rfl
  have htime : (t.putTables place written).top.bare = t.top.bare := by
    refine Eq.trans (FileEntry.bare_modify hproper' fun x hx => ?_) hput
    obtain ⟨rest, hrest⟩ := List.dropLast_prefix place
    have hinner := FileEntry.descend_append (t.putFile place (.tables written) t.now).top
      place.dropLast rest
    rw [hrest, hentry, hx] at hinner
    exact FileEntry.bare_withTime hinner.symm rfl _
  exact congrArg (FileTree.mk · 0) htime

end FileTree

end ConstGraph
