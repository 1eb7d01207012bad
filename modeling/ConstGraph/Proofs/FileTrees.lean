import ConstGraph.Cache.Open
import Mathlib.Data.List.Basic
import Mathlib.Tactic.Common

/-!
# Changes at a place of a file tree

What a change at one place does to the others: nothing, as far as it keeps
the entry there what it is (`isDirectory_descend_modify`); at the place
itself, just the change (`descend_modify`). A walk that ends well ends at
the place of what it has found (`entryAt_of_locate`), and a straight path
leads to what stands at the place of its names (`find_of_entryAt`).

`Proper` says of an entry that no name stands twice in a directory, and
`Holds` that some tables stand somewhere below it. Both are followed
through a change by what the change does at its place.
-/

namespace ConstGraph

namespace FileEntry

variable {e e' : FileEntry} {entries : List (String × FileEntry)} {name n : String}
  {f : FileEntry → FileEntry} {place : Place} {c : CacheTables}

/-! ## Looking up -/

theorem lookup_replace (name n : String) (f : FileEntry → FileEntry)
    (entries : List (String × FileEntry)) :
    (replace name f entries).lookup n =
      if n = name then (entries.lookup n).map f else entries.lookup n := by
  induction entries with
  | nil => simp [replace]
  | cons x entries ih =>
    obtain ⟨m, e⟩ := x
    rw [replace, List.map_cons, ← replace]
    by_cases hm : m = name
    · subst hm
      by_cases hn : n = m
      · subst hn
        simp
      · have hne : (n == m) = false := by simpa using hn
        simp only [beq_self_eq_true, if_true, List.lookup_cons, hne, ih, if_neg hn]
    · have hfalse : (m == name) = false := by simpa using hm
      by_cases hn : n = m
      · subst hn
        simp [hfalse, hm]
      · have hne : (n == m) = false := by simpa using hn
        simp only [hfalse, Bool.false_eq_true, if_false, List.lookup_cons, hne, ih]

theorem mem_of_lookup_eq_some (h : entries.lookup name = some e) : (name, e) ∈ entries := by
  obtain ⟨outer, inner, hsplit, -⟩ := List.lookup_eq_some_iff.1 h
  simp [hsplit]

theorem notMem_of_lookup_eq_none (h : entries.lookup name = none) :
    name ∉ entries.map Prod.fst := by
  intro hname
  obtain ⟨x, hx, rfl⟩ := List.mem_map.1 hname
  simpa using List.lookup_eq_none_iff.1 h x hx

/-- Where no name stands twice, an entry is the one of its name. -/
theorem lookup_eq_some_of_mem (hnodup : (entries.map Prod.fst).Nodup) (h : (name, e) ∈ entries) :
    entries.lookup name = some e := by
  induction entries with
  | nil => cases h
  | cons x entries ih =>
    obtain ⟨m, e'⟩ := x
    obtain ⟨hm, hnodup⟩ := List.nodup_cons.1 hnodup
    rcases List.mem_cons.1 h with heq | hmem
    · cases heq
      simp
    · have hne : name ≠ m := by
        rintro rfl
        exact hm (List.mem_map.2 ⟨(name, e), hmem, rfl⟩)
      have hfalse : (name == m) = false := by simpa using hne
      rw [List.lookup_cons, hfalse]
      exact ih hnodup hmem

/-! ## Descending -/

@[simp] theorem descend_nil (e : FileEntry) : e.descend [] = some e := by
  rw [descend]

theorem descend_cons (e : FileEntry) (name : String) (rest : Place) :
    e.descend (name :: rest) = (e.child? name).bind (·.descend rest) := by
  rw [descend]
  cases e.child? name <;> rfl

/-- Below what is no directory there is nothing. -/
theorem eq_of_descend_eq_some {e e' : FileEntry} {rest : Place} (he : e.entries = [])
    (h : e.descend rest = some e') : rest = [] ∧ e' = e := by
  cases rest with
  | nil =>
    rw [descend_nil] at h
    cases h
    exact ⟨rfl, rfl⟩
  | cons name rest =>
    rw [descend_cons, child?, he] at h
    cases h

theorem descend_append (e : FileEntry) (outer inner : Place) :
    e.descend (outer ++ inner) = (e.descend outer).bind (·.descend inner) := by
  induction outer generalizing e with
  | nil => simp
  | cons name outer ih =>
    rw [List.cons_append, descend_cons, descend_cons, Option.bind_assoc]
    simp only [ih]

/-- What stands at a place below a changed place is what the change makes
of what stood there. -/
theorem descend_modify_append (f : FileEntry → FileEntry) (place rest : Place) (e : FileEntry) :
    (modify f place e).descend (place ++ rest) =
      (e.descend place).bind fun x => (f x).descend rest := by
  induction place generalizing e with
  | nil => simp [modify]
  | cons name place ih =>
    rw [List.cons_append, descend_cons, descend_cons]
    cases e with
    | directory entries changed =>
      simp only [modify, child?, FileEntry.entries, lookup_replace, if_true]
      cases entries.lookup name with
      | none => rfl
      | some x => exact ih x
    | _ => rfl

theorem descend_modify (f : FileEntry → FileEntry) (place : Place) (e : FileEntry) :
    (modify f place e).descend place = (e.descend place).map f := by
  have h := descend_modify_append f place [] e
  rw [List.append_nil] at h
  rw [h]
  cases e.descend place <;> simp

/-- **A change that keeps what an entry is** keeps it everywhere else. -/
theorem isDirectory_descend_modify (hf : ∀ x, (f x).isDirectory = x.isDirectory)
    (hentries : ∀ x, (f x).entries = x.entries) (place : Place) (e : FileEntry) (q : Place) :
    ((modify f place e).descend q).map isDirectory = (e.descend q).map isDirectory := by
  induction place generalizing e q with
  | nil =>
    cases q with
    | nil => simp [modify, hf]
    | cons n q => simp only [modify, descend_cons, child?, hentries]
  | cons name place ih =>
    cases e with
    | directory entries changed =>
      cases q with
      | nil => rfl
      | cons n q =>
        simp only [modify, descend_cons, child?, FileEntry.entries, lookup_replace]
        by_cases hn : n = name
        · simp only [if_pos hn]
          cases entries.lookup n with
          | none => rfl
          | some x => exact ih x q
        · simp only [if_neg hn]
    | _ => rfl

/-! ## Names -/

/-- In no directory does a name stand twice. -/
inductive Proper : FileEntry → Prop
  /-- A file is proper. -/
  | file {content : FileContent} {number : Nat} {changed : Moment} :
      Proper (.file content number changed)
  /-- A link is proper. -/
  | link {target : LinkTarget} : Proper (.link target)
  /-- A directory whose names differ and whose entries are proper. -/
  | directory {entries : List (String × FileEntry)} {changed : Moment} :
      (entries.map Prod.fst).Nodup → (∀ x ∈ entries, Proper x.2) →
        Proper (.directory entries changed)

theorem map_fst_replace (name : String) (f : FileEntry → FileEntry)
    (entries : List (String × FileEntry)) :
    (replace name f entries).map Prod.fst = entries.map Prod.fst := by
  rw [replace, List.map_map]
  refine List.map_congr_left fun x _ => ?_
  simp only [Function.comp_apply]
  split <;> rfl

/-- What the entries of a proper directory become under a change of one of
them. -/
theorem mem_replace {x : String × FileEntry} (hnodup : (entries.map Prod.fst).Nodup)
    (h : x ∈ replace name f entries) :
    x ∈ entries ∨ ∃ e, entries.lookup name = some e ∧ x = (name, f e) := by
  obtain ⟨y, hy, rfl⟩ := List.mem_map.1 h
  by_cases hname : y.1 == name
  · have heq : y.1 = name := by simpa using hname
    refine Or.inr ⟨y.2, lookup_eq_some_of_mem hnodup (heq ▸ hy), ?_⟩
    simp [heq]
  · simp only [hname]
    exact Or.inl hy

/-- A change keeps an entry proper if it does at its place. -/
theorem Proper.modify (h : e.Proper)
    (hf : ∀ x, e.descend place = some x → x.Proper → (f x).Proper) :
    (FileEntry.modify f place e).Proper := by
  induction place generalizing e with
  | nil => exact hf e (descend_nil e) h
  | cons name place ih =>
    cases h with
    | file => exact .file
    | link => exact .link
    | @directory entries changed hnodup hentries =>
      refine .directory (by rwa [map_fst_replace]) fun x hx => ?_
      rcases mem_replace hnodup hx with hx | ⟨y, hy, rfl⟩
      · exact hentries x hx
      · refine ih (hentries (name, y) (mem_of_lookup_eq_some hy)) fun z hz => hf z ?_
        rw [descend_cons, child?, FileEntry.entries, hy]
        exact hz

theorem Proper.withTime (h : e.Proper) (changed : Moment) : (e.withTime changed).Proper := by
  cases h with
  | file => exact .file
  | link => exact .link
  | directory hnodup hentries => exact .directory hnodup hentries

/-- A new name keeps a directory proper. -/
theorem Proper.insert (h : e.Proper) (h' : e'.Proper) (hnew : e.child? name = none)
    (now : Moment) : (FileEntry.insert now name e' e).Proper := by
  cases h with
  | file => exact .file
  | link => exact .link
  | @directory entries changed hnodup hentries =>
    refine .directory ?_ fun x hx => ?_
    · rw [List.map_append, List.nodup_append]
      refine ⟨hnodup, List.nodup_cons.2 ⟨List.not_mem_nil, List.nodup_nil⟩, ?_⟩
      rintro a ha b hb rfl
      obtain rfl : a = name := by simpa using hb
      exact notMem_of_lookup_eq_none hnew ha
    · rcases List.mem_append.1 hx with hx | hx
      · exact hentries x hx
      · obtain rfl := List.mem_singleton.1 hx
        exact h'

/-! ## Tables -/

/-- Some tables stand in an entry or below it. -/
inductive Holds : FileEntry → CacheTables → Prop
  /-- They are the content of a file. -/
  | file {c : CacheTables} {number : Nat} {changed : Moment} :
      Holds (.file (.tables c) number changed) c
  /-- They stand in an entry of a directory. -/
  | directory {entries : List (String × FileEntry)} {changed : Moment} {x : String × FileEntry}
      {c : CacheTables} : x ∈ entries → Holds x.2 c → Holds (.directory entries changed) c

/-- Tables that stand somewhere after a change stood there before, unless
the change brought them in. -/
theorem Holds.of_modify {P : Prop} (hf : ∀ x, (f x).Holds c → x.Holds c ∨ P)
    (h : (FileEntry.modify f place e).Holds c) : e.Holds c ∨ P := by
  induction place generalizing e with
  | nil => exact hf e h
  | cons name place ih =>
    cases e with
    | directory entries changed =>
      cases h with
      | @directory _ _ x _ hx hc =>
        obtain ⟨y, hy, rfl⟩ := List.mem_map.1 hx
        by_cases hname : y.1 == name
        · simp only [hname, if_true] at hc
          exact (ih hc).imp_left (Holds.directory hy)
        · simp only [hname] at hc
          exact Or.inl (.directory hy hc)
    | _ => exact Or.inl h

theorem Holds.of_withTime {changed : Moment} (h : (e.withTime changed).Holds c) : e.Holds c := by
  cases e with
  | file content number before =>
    cases h
    exact .file
  | directory entries before =>
    cases h with
    | directory hx hc => exact .directory hx hc
  | link target => exact h

theorem Holds.of_insert {now : Moment} (h : (FileEntry.insert now name e' e).Holds c) :
    e.Holds c ∨ e'.Holds c := by
  cases e with
  | directory entries before =>
    cases h with
    | @directory _ _ x _ hx hc =>
      rcases List.mem_append.1 hx with hx | hx
      · exact Or.inl (.directory hx hc)
      · obtain rfl := List.mem_singleton.1 hx
        exact Or.inr hc
  | _ => exact Or.inl h

theorem holds_of_descend (h : e.descend place = some e') (h' : e'.Holds c) : e.Holds c := by
  induction place generalizing e with
  | nil =>
    rw [descend_nil] at h
    cases h
    exact h'
  | cons name place ih =>
    rw [descend_cons] at h
    obtain ⟨x, hx, hdescend⟩ := Option.bind_eq_some_iff.1 h
    cases e with
    | directory entries changed =>
      exact .directory (mem_of_lookup_eq_some hx) (ih hdescend)
    | _ => cases hx

end FileEntry

namespace FileTree

variable {t : FileTree} {trail : Trail} {names : List String} {spot : Spot} {place : Place}
  {p : PathName}

/-! ## Where walks lead -/

/-- Each directory of a trail is the one of its name in the directory
around it. -/
inductive Leads (t : FileTree) : Trail → Prop
  /-- The walk has not left the top. -/
  | nil : Leads t []
  /-- The walk has gone into a directory. -/
  | cons {trail : Trail} {name : String} {e : FileEntry} : Leads t trail →
      (t.here trail).child? name = some e → Leads t ((name, e) :: trail)

theorem Leads.tail (h : t.Leads trail) : t.Leads trail.tail := by
  cases h with
  | nil => exact .nil
  | cons h _ => exact h

/-- A trail is where its place is. -/
theorem Leads.entryAt (h : t.Leads trail) :
    t.entryAt (Trail.place trail) = some (t.here trail) := by
  induction h with
  | nil => exact FileEntry.descend_nil t.top
  | @cons trail name e _ hchild ih =>
    rw [FileTree.entryAt] at ih ⊢
    rw [Trail.place, List.map_cons, List.reverse_cons, ← Trail.place, FileEntry.descend_append, ih,
      Option.bind_some, FileEntry.descend_cons, hchild]
    exact FileEntry.descend_nil e

/-- An entry in the directory a walk has come to. -/
theorem Leads.entryAt_child (h : t.Leads trail) (name : String) :
    t.entryAt (Trail.place trail ++ [name]) = (t.here trail).child? name := by
  have hhere := h.entryAt
  rw [FileTree.entryAt] at hhere ⊢
  rw [FileEntry.descend_append, hhere, Option.bind_some, FileEntry.descend_cons]
  cases (t.here trail).child? name <;> simp

/-- **A walk ends at the place of what it has found.** -/
theorem entryAt_of_walk (h : t.Leads trail) {follow slash : Bool} {links : Nat}
    (hwalk : t.walk follow slash links trail names = .ok spot) :
    t.entryAt spot.place = spot.entry := by
  fun_induction walk t follow slash links trail names with
  | case1 =>
    cases hwalk
    exact h.entryAt
  | case2 _ _ _ _ ih => exact ih h hwalk
  | case3 _ _ _ _ _ ih => exact ih h.tail hwalk
  | case5 _ _ _ name _ _ _ _ _ hnone =>
    cases hwalk
    exact (h.entryAt_child name).trans hnone
  | case7 _ _ _ _ _ _ _ _ _ _ hchild ih => exact ih (h.cons hchild) hwalk
  | case8 _ _ _ name _ _ _ _ _ _ _ _ hchild =>
    cases hwalk
    exact (h.entryAt_child name).trans hchild
  | case10 _ _ _ name _ _ _ _ _ _ hchild =>
    cases hwalk
    exact (h.entryAt_child name).trans hchild
  | case12 _ _ _ _ _ _ _ target _ _ _ ih =>
    -- a link leads on from the top or from where it stands
    refine ih ?_ (by simpa using hwalk)
    split
    · exact .nil
    · exact h
  | _ => cases hwalk

theorem entryAt_of_locate {follow : Bool} (h : t.locate follow p = .ok spot) :
    t.entryAt spot.place = spot.entry := by
  unfold locate at h
  split at h
  · cases h
  split at h
  · cases h
  · exact entryAt_of_walk .nil h

/-- What a path leads to stands somewhere. -/
theorem exists_entryAt_of_find {follow : Bool} {e : FileEntry} (h : t.find follow p = .ok e) :
    ∃ place, t.entryAt place = some e := by
  unfold find at h
  rcases hlocate : t.locate follow p with e' | spot
  · rw [hlocate] at h
    cases h
  · rw [hlocate] at h
    refine ⟨spot.place, (entryAt_of_locate hlocate).trans ?_⟩
    simp only [bind, Except.bind] at h
    cases hentry : spot.entry with
    | none =>
      rw [hentry] at h
      cases h
    | some e' =>
      rw [hentry] at h
      dsimp only at h
      split at h
      · cases h
      · cases h
        rfl

/-- A walk meets no null character. -/
theorem walk_ne_nullCharacter (t : FileTree) (follow slash : Bool) (links : Nat) (trail : Trail)
    (names : List String) : t.walk follow slash links trail names ≠ .error .nullCharacter := by
  fun_induction walk t follow slash links trail names with
  | case2 _ _ _ _ ih => exact ih
  | case3 _ _ _ _ _ ih => exact ih
  | case7 _ _ _ _ _ _ _ _ _ _ _ ih => exact ih
  | case12 _ _ _ _ _ _ _ _ _ _ _ ih => simpa using ih
  | _ => exact nofun

theorem find_ne_nullCharacter {follow : Bool} (h : p.text.contains '\x00' = false) :
    t.find follow p ≠ .error .nullCharacter := by
  have hwalk := walk_ne_nullCharacter t follow false maxLinks [] p.parts
  rw [find, locate, if_neg (by simp [h])]
  split
  · exact nofun
  · rcases hspot : t.walk follow false maxLinks [] p.parts with e | ⟨place, entry, slash⟩
    · rw [hspot] at hwalk
      intro he
      cases he
      exact hwalk rfl
    · cases entry with
      | none => exact nofun
      | some e =>
        simp only [bind, Except.bind]
        split <;> exact nofun

/-- A walk that ends at a file without following a last link ends there
with it. -/
theorem walk_follow {slash : Bool} {links : Nat} {content : FileContent} {number : Nat}
    {changed : Moment} (hfile : spot.entry = some (.file content number changed))
    (hwalk : t.walk false slash links trail names = .ok spot) :
    t.walk true slash links trail names = .ok spot := by
  fun_induction walk t false slash links trail names with
  | case1 =>
    rw [walk]
    exact hwalk
  | case2 _ _ _ _ ih =>
    rw [walk, if_pos rfl]
    exact ih hwalk
  | case3 _ _ _ _ hdot ih =>
    rw [walk, if_neg hdot, if_pos rfl]
    exact ih hwalk
  | case5 _ _ _ _ _ _ _ _ _ hnone =>
    cases hwalk
    cases hfile
  | case7 _ _ _ _ _ hdot hdots hshort _ _ hchild ih =>
    rw [walk, if_neg hdot, if_neg hdots, if_neg hshort, hchild]
    exact ih hwalk
  | case8 _ _ _ _ _ hdot hdots hshort _ _ _ _ hchild hrest =>
    rw [walk, if_neg hdot, if_neg hdots, if_neg hshort, hchild]
    simp only [hrest, if_true]
    exact hwalk
  | case10 =>
    cases hwalk
    cases hfile
  | case12 _ _ _ _ hdot hdots hshort _ hchild _ _ ih =>
    rw [walk, if_neg hdot, if_neg hdots, if_neg hshort, hchild]
    simpa using ih (by simpa using hwalk)
  | _ => cases hwalk

theorem find_true_of_find_false {content : FileContent} {number : Nat} {changed : Moment}
    (h : t.find false p = .ok (.file content number changed)) :
    t.find true p = .ok (.file content number changed) := by
  simp only [find, locate] at h ⊢
  split at h
  · cases h
  split at h
  · cases h
  · next hnull hlong =>
    simp only [if_neg hnull, if_neg hlong]
    cases hwalk : t.walk false false maxLinks [] p.parts with
    | error e =>
      rw [hwalk] at h
      cases h
    | ok spot =>
      rw [hwalk] at h
      obtain ⟨place, entry, slash⟩ := spot
      cases entry with
      | none => cases h
      | some e =>
        have hentry : e = .file content number changed := by
          simp only [bind, Except.bind] at h
          split at h
          · cases h
          · cases h
            rfl
        subst hentry
        rw [walk_follow rfl hwalk]
        exact h

/-! ## Straight paths -/

/-- A name leads down: it is short enough, and stands for no other
directory. -/
def isPlainName (name : String) : Bool :=
  name != "." && name != ".." && decide (name.utf8ByteSize ≤ maxNameBytes)

theorem isPlainName_iff {name : String} : isPlainName name ↔
    name ≠ "." ∧ name ≠ ".." ∧ name.utf8ByteSize ≤ maxNameBytes := by
  simp [isPlainName, and_assoc]

/-- A path can be asked for, and all its names lead down. -/
def isStraight (p : PathName) : Bool :=
  !p.text.toList.contains '\x00' && decide (p.text.utf8ByteSize ≤ maxPathBytes) &&
    p.parts.all isPlainName

/-- **A walk along plain names goes down to what stands below**, unless that
is a link. -/
theorem walk_of_descend {e : FileEntry} (hnames : ∀ name ∈ names, isPlainName name)
    (h : (t.here trail).descend names = some e) (hlink : ∀ target, e ≠ .link target)
    (follow slash : Bool) (links : Nat) :
    t.walk follow slash links trail names = .ok ⟨Trail.place trail ++ names, some e, slash⟩ := by
  induction names generalizing trail with
  | nil =>
    rw [FileEntry.descend_nil] at h
    cases h
    rw [walk, List.append_nil]
  | cons name rest ih =>
    obtain ⟨hdot, hdots, hshort⟩ := isPlainName_iff.1 (hnames name List.mem_cons_self)
    rw [FileEntry.descend_cons] at h
    obtain ⟨x, hx, hrest⟩ := Option.bind_eq_some_iff.1 h
    rw [walk, if_neg hdot, if_neg hdots, if_neg (by omega), hx]
    cases x with
    | directory entries changed =>
      have hhere : (t.here ((name, .directory entries changed) :: trail)).descend rest = some e :=
        hrest
      dsimp only
      rw [ih (fun n hn => hnames n (List.mem_cons_of_mem _ hn)) hhere]
      simp [Trail.place]
    | file content number changed =>
      obtain ⟨rfl, rfl⟩ := FileEntry.eq_of_descend_eq_some rfl hrest
      rfl
    | link target =>
      obtain ⟨rfl, rfl⟩ := FileEntry.eq_of_descend_eq_some rfl hrest
      exact absurd rfl (hlink target)

/-- **A straight path leads to what stands at the place of its names.** -/
theorem locate_of_entryAt {e : FileEntry} (hp : isStraight p) (h : t.entryAt p.parts = some e)
    (hlink : ∀ target, e ≠ .link target) (follow : Bool) :
    t.locate follow p = .ok ⟨p.parts, some e, false⟩ := by
  simp only [isStraight, Bool.and_eq_true, Bool.not_eq_true', decide_eq_true_eq,
    List.all_eq_true] at hp
  obtain ⟨⟨hnull, hshort⟩, hnames⟩ := hp
  have hnamed : p.text.contains '\x00' = false := by simpa using hnull
  have htop : (t.here []).descend p.parts = some e := h
  rw [locate, if_neg (by simp [hnamed]), if_neg (by omega), walk_of_descend hnames htop hlink]
  rfl

theorem find_of_entryAt {e : FileEntry} (hp : isStraight p) (h : t.entryAt p.parts = some e)
    (hlink : ∀ target, e ≠ .link target) (follow : Bool) : t.find follow p = .ok e := by
  rw [find, locate_of_entryAt hp h hlink]
  rfl

theorem ask_of_entryAt {e : FileEntry} (hp : isStraight p) (h : t.entryAt p.parts = some e)
    (hlink : ∀ target, e ≠ .link target) (follow : Bool) (holds : FileEntry → Bool) :
    t.ask follow holds p = .ok (holds e) := by
  rw [ask, find_of_entryAt hp h hlink]

/-! ## Writing tables -/

/-- What is inside a directory does not show its time. -/
theorem descend_withTime_cons (e : FileEntry) (changed : Moment) (name : String) (rest : Place) :
    (e.withTime changed).descend (name :: rest) = e.descend (name :: rest) := by
  cases e <;> simp [FileEntry.descend_cons, FileEntry.withTime, FileEntry.child?, FileEntry.entries]

theorem entryAt_modify_withTime (t : FileTree) (outer : Place) (name : String)
    (changed : Moment) :
    (t.modify outer (.withTime changed)).entryAt (outer ++ [name]) =
      t.entryAt (outer ++ [name]) := by
  simp only [entryAt, modify, FileEntry.descend_modify_append, descend_withTime_cons]
  rw [FileEntry.descend_append]

/-- What writing makes of a file. -/
def rewritten (content : FileContent) (changed : Moment) : FileEntry → FileEntry
  | .file _ number _ => .file content number changed
  | e => e

theorem putFile_of_entryAt {e : FileEntry} (h : t.entryAt place = some e) (content : FileContent)
    (changed : Moment) :
    t.putFile place content changed = t.modify place (rewritten content changed) := by
  rw [putFile, h]
  rfl

variable {content : FileContent} {number : Nat} {changed : Moment} {tables : CacheTables}

/-- The tables that were written stand at their place. -/
theorem entryAt_putTables (h : t.entryAt place = some (.file content number changed))
    (tables : CacheTables) :
    ∃ changed, (t.putTables place tables).entryAt place =
      some (.file (.tables tables) number changed) := by
  have hput : (t.putFile place (.tables tables) t.now).entryAt place =
      some (.file (.tables tables) number t.now) := by
    rw [putFile_of_entryAt h, entryAt, modify, FileEntry.descend_modify, ← entryAt, h]
    rfl
  rcases List.eq_nil_or_concat' place with rfl | ⟨outer, name, rfl⟩
  · rw [entryAt, FileEntry.descend_nil, Option.some.injEq] at hput
    refine ⟨(t.putFile [] (.tables tables) t.now).now, ?_⟩
    rw [putTables, entryAt, modify, List.dropLast_nil, FileEntry.descend_modify,
      FileEntry.descend_nil, hput]
    rfl
  · rw [putTables, List.dropLast_concat, entryAt_modify_withTime]
    exact ⟨_, hput⟩

theorem isDirectory_rewritten (content : FileContent) (changed : Moment) (e : FileEntry) :
    (rewritten content changed e).isDirectory = e.isDirectory := by
  cases e <;> rfl

theorem entries_rewritten (content : FileContent) (changed : Moment) (e : FileEntry) :
    (rewritten content changed e).entries = e.entries := by
  cases e <;> rfl

theorem isDirectory_withTime (changed : Moment) (e : FileEntry) :
    (e.withTime changed).isDirectory = e.isDirectory := by
  cases e <;> rfl

theorem entries_withTime (changed : Moment) (e : FileEntry) :
    (e.withTime changed).entries = e.entries := by
  cases e <;> rfl

/-- Writing tables bars no journal. -/
theorem isJournalBlocked_putTables {e : FileEntry} (h : t.entryAt place = some e)
    (tables : CacheTables) (q : Place) :
    (t.putTables place tables).isJournalBlocked q = t.isJournalBlocked q := by
  have hsame : ∀ q, ((t.putTables place tables).entryAt q).any (·.isDirectory) =
      (t.entryAt q).any (·.isDirectory) := by
    intro q
    have hmap : ((t.putTables place tables).entryAt q).map FileEntry.isDirectory =
        (t.entryAt q).map FileEntry.isDirectory := by
      rw [putTables, putFile_of_entryAt h]
      simp only [entryAt, modify]
      rw [FileEntry.isDirectory_descend_modify (isDirectory_withTime _) (entries_withTime _),
        FileEntry.isDirectory_descend_modify (isDirectory_rewritten _ _) (entries_rewritten _ _)]
    have hany : ∀ o : Option FileEntry,
        o.any (·.isDirectory) = (o.map FileEntry.isDirectory).any id := by
      intro o
      cases o <;> rfl
    rw [hany, hany, hmap]
  simp only [isJournalBlocked, hsame]

theorem proper_putTables (hproper : t.top.Proper) {e : FileEntry} (h : t.entryAt place = some e)
    (tables : CacheTables) : (t.putTables place tables).top.Proper := by
  rw [putTables, putFile_of_entryAt h]
  refine FileEntry.Proper.modify (hproper.modify fun x _ hx => ?_) fun x _ hx => hx.withTime _
  cases x with
  | file => exact .file
  | _ => exact hx

theorem holds_of_putTables {c : CacheTables} {e : FileEntry} (h : t.entryAt place = some e)
    (hc : (t.putTables place tables).top.Holds c) : t.top.Holds c ∨ c = tables := by
  rw [putTables, putFile_of_entryAt h] at hc
  rcases FileEntry.Holds.of_modify (fun x hx => Or.inl hx.of_withTime) hc with hc | hc
  · refine FileEntry.Holds.of_modify (fun x hx => ?_) hc
    cases x with
    | file =>
      cases hx
      exact Or.inr rfl
    | _ => exact Or.inl hx
  · exact hc

end FileTree

end ConstGraph
