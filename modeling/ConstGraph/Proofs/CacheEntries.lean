import ConstGraph.Files.Entry
import ConstGraph.Proofs.StoredRecords
import Mathlib.Data.List.Basic

/-!
# The entries of a cache

The two tables of a cache hold one list of entries (`CacheTables.ofEntries`):
a row of the one table and a row of the other for each entry. Storing
results puts an entry in the place of another of the same file, forgetting
them takes it out. While no file has two entries, the tables answer with
the entry of the file (`get?_ofEntries`), and they count the records of all
entries (`stats_ofEntries`).

The key of an entry can be kept as one text. Its parts can be told apart
there (`CacheKey.text_inj`), even though the last may hold the mark that
parts them.
-/

namespace ConstGraph

/-! ## The text of a key -/

/-- A key as one text: the time as it is printed, the size and the
fingerprint, with colons between. -/
def CacheKey.text (print : Stamp → String) (k : CacheKey) : String :=
  print k.stamp ++ ":" ++ toString k.size ++ ":" ++ k.fingerprint

/-- The first mark parts a text in one way. -/
theorem append_cons_inj {α : Type} {mark : α} {front front' back back' : List α}
    (h : mark ∉ front) (h' : mark ∉ front')
    (heq : front ++ mark :: back = front' ++ mark :: back') : front = front' ∧ back = back' := by
  induction front generalizing front' with
  | nil =>
    cases front' with
    | nil => exact ⟨rfl, (List.cons.inj heq).2⟩
    | cons x front' => exact absurd (by simp [(List.cons.inj heq).1]) h'
  | cons x front ih =>
    cases front' with
    | nil => exact absurd (by simp [(List.cons.inj heq).1]) h
    | cons y front' =>
      obtain ⟨rfl, htail⟩ := List.cons.inj heq
      obtain ⟨rfl, hback⟩ := ih (fun hm => h (List.mem_cons_of_mem _ hm))
        (fun hm => h' (List.mem_cons_of_mem _ hm)) htail
      exact ⟨rfl, hback⟩

/-- **The text of a key tells its parts**, whatever the fingerprint: the
time and the size hold no colon. -/
theorem CacheKey.text_inj {print : Stamp → String} (hprint : Function.Injective print)
    (hcolon : ∀ s, ':' ∉ (print s).toList) {k k' : CacheKey} :
    k.text print = k'.text print ↔ k = k' := by
  refine ⟨fun h => ?_, fun h => by rw [h]⟩
  have hdigits : ∀ n : Nat, (toString n).toList = Nat.toDigits 10 n := by
    intro n
    rw [Nat.toString_eq_repr, Nat.toList_repr]
  have hsize : ∀ n : Nat, ':' ∉ (toString n).toList := by
    intro n hmem
    rw [hdigits] at hmem
    exact absurd (Json.isDigit_of_mem_toDigits hmem) (by decide)
  have htext : ∀ k : CacheKey, (k.text print).toList = (print k.stamp).toList ++
      ':' :: ((toString k.size).toList ++ ':' :: k.fingerprint.toList) := by
    intro k
    simp [text]
  have hlist := congrArg String.toList h
  rw [htext, htext] at hlist
  obtain ⟨hstamp, hrest⟩ := append_cons_inj (hcolon _) (hcolon _) hlist
  obtain ⟨hnumber, hfingerprint⟩ := append_cons_inj (hsize _) (hsize _) hrest
  obtain ⟨stamp, size, fingerprint⟩ := k
  obtain ⟨stamp', size', fingerprint'⟩ := k'
  obtain rfl : stamp = stamp' := hprint (String.toList_injective hstamp)
  obtain rfl : size = size' := by
    rw [hdigits, hdigits] at hnumber
    rw [← Json.digitsValue_toDigits size, hnumber, Json.digitsValue_toDigits]
  obtain rfl : fingerprint = fingerprint' := String.toList_injective hfingerprint
  rfl

/-! ## Values -/

theorem Definition.map_injective {σ ν τ μ : Type} {f : σ → τ} {g : ν → μ}
    (hf : Function.Injective f) (hg : Function.Injective g) :
    Function.Injective (Definition.map f g) := by
  rintro ⟨path, kind, file, line, lines⟩ ⟨path', kind', file', line', lines'⟩ h
  simp only [map, Definition.mk.injEq] at h
  obtain ⟨hpath, rfl, hfile, hline, hlines⟩ := h
  rw [List.map_injective_iff.mpr hf hpath, hf hfile, hg hline, hg hlines]

theorem Relation.map_injective {σ ν τ μ : Type} {f : σ → τ} {g : ν → μ}
    (hf : Function.Injective f) (hg : Function.Injective g) :
    Function.Injective (Relation.map f g) := by
  rintro ⟨path, caller, inMethod, callee, file, line⟩
    ⟨path', caller', inMethod', callee', file', line'⟩ h
  simp only [map, Relation.mk.injEq] at h
  obtain ⟨hpath, hcaller, hinMethod, hcallee, hfile, hline⟩ := h
  rw [List.map_injective_iff.mpr hf hpath, List.map_injective_iff.mpr hf hcaller, hf hinMethod,
    hf hcallee, hf hfile, hg hline]

/-- What is stored of some results tells them apart from all others. -/
theorem WalkResult.values_injective :
    Function.Injective (WalkResult.values : WalkResult → WalkResult Json Json) := by
  have hstr : Function.Injective (Storable.toJson : String → Json) := fun _ _ h => Json.str.inj h
  have hint : Function.Injective (Storable.toJson : Int → Json) := fun _ _ h => Json.int.inj h
  rintro ⟨definitions, relations⟩ ⟨definitions', relations'⟩ h
  simp only [values, WalkResult.map, WalkResult.mk.injEq] at h
  rw [List.map_injective_iff.mpr (Definition.map_injective hstr hint) h.1,
    List.map_injective_iff.mpr (Relation.map_injective hstr hint) h.2]

/-- No number of the results is too long to be written. -/
def WalkResult.IsShort (r : WalkResult) : Prop :=
  (∀ d ∈ r.definitions, isOverlong d.line = false ∧ isOverlong d.lines = false) ∧
    ∀ s ∈ r.relations, isOverlong s.line = false

/-- Results can be stored if all their numbers can be written, whatever
their names are. -/
theorem WalkResult.IsShort.isStorable {r : WalkResult} (h : r.IsShort) : r.values.isStorable := by
  have hpath : ∀ p : ConstPath, (Json.ofList (p.map Json.str)).isWritable := by
    intro p
    refine Json.areWritable_iff.2 fun x hx => ?_
    obtain ⟨y, hy, rfl⟩ := List.mem_map.mp hx
    obtain ⟨name, -, rfl⟩ := List.mem_map.mp hy
    rfl
  rw [WalkResult.isStorable, Bool.and_eq_true]
  constructor
  · refine Json.areWritable_iff.2 fun x hx => ?_
    obtain ⟨y, hy, rfl⟩ := List.mem_map.mp hx
    obtain ⟨d, hd, rfl⟩ := List.mem_map.mp hy
    obtain ⟨hline, hlines⟩ := h.1 d hd
    simp [Definition.toJson, Definition.map, Json.isWritable, Json.fieldsWritable, hpath,
      Storable.toJson, hline, hlines]
  · refine Json.areWritable_iff.2 fun x hx => ?_
    obtain ⟨y, hy, rfl⟩ := List.mem_map.mp hx
    obtain ⟨s, hs, rfl⟩ := List.mem_map.mp hy
    simp [Relation.toJson, Relation.map, Json.isWritable, Json.fieldsWritable, hpath,
      Storable.toJson, h.2 s hs]

/-! ## Entries -/

/-- What a cache holds of a file: what the file was when its results were
stored, under which fingerprint, and the results. -/
structure CacheEntry where
  /-- The path of the file. -/
  file : String
  /-- The fingerprint in force. -/
  fingerprint : String
  /-- What stood at the path. -/
  found : FileEntry
  /-- The results. -/
  result : WalkResult

namespace CacheEntry

/-- The key of an entry. -/
def key (x : CacheEntry) : CacheKey := ⟨x.found.changed.stamp, x.found.size, x.fingerprint⟩

/-- The row of an entry in the table of keys. -/
def keyRow (x : CacheEntry) : KeyRow := ⟨x.file, x.key⟩

/-- The row of an entry in the table of results. -/
def resultRow (x : CacheEntry) : ResultRow := .ofResult x.file x.key x.result.values

end CacheEntry

/-- Results can be counted once they are stored. -/
theorem CacheTables.storedLength_storedText {α : Type} {write : α → Json} {rs : List α}
    (hfits : ∀ r ∈ rs, Json.Fits 984 (write r)) :
    storedLength (storedText write rs) = .ok (some rs.length) := by
  have harr : Json.Fits Json.maxNesting (.arr (rs.map write)) := by
    refine .arr fun x hx => ?_
    obtain ⟨r, hr, rfl⟩ := List.mem_map.1 hx
    exact hfits r hr
  simp [storedLength, storedText, Json.parse_render harr, Json.elements?]

namespace CacheTables

variable {xs : List CacheEntry} {x : CacheEntry} {file : String}

/-- The tables that hold some entries. -/
def ofEntries (xs : List CacheEntry) : CacheTables :=
  ⟨xs.map CacheEntry.keyRow, xs.map CacheEntry.resultRow⟩

/-- Where a file has no row there is nothing to take out. -/
theorem erase_eq_self {t : CacheTables} (h : t.mentions file = false) : t.erase file = t := by
  simp only [mentions, Bool.or_eq_false_iff, List.any_eq_false, beq_iff_eq] at h
  have hkeys : t.keys.filter (·.file != file) = t.keys :=
    List.filter_eq_self.mpr fun row hrow => bne_iff_ne.mpr (h.1 row hrow)
  have hresults : t.results.filter (·.file != file) = t.results :=
    List.filter_eq_self.mpr fun row hrow => bne_iff_ne.mpr (h.2 row hrow)
  rw [erase, hkeys, hresults]

theorem erase_ofEntries (xs : List CacheEntry) (file : String) :
    (ofEntries xs).erase file = ofEntries (xs.filter (·.file != file)) := by
  simp only [erase, ofEntries, List.filter_map]
  rfl

theorem insert_ofEntries (xs : List CacheEntry) (x : CacheEntry) :
    (ofEntries xs).insert x.file x.key x.result.values =
      ofEntries (xs.filter (·.file != x.file) ++ [x]) := by
  simp only [insert, insertKey, insertResult, ofEntries, List.filter_map, List.map_append]
  rfl

/-- **The tables answer with the entry of the file**, if it has the key. -/
theorem get?_ofEntries (hstorable : ∀ x ∈ xs, x.result.values.isStorable) (file : String)
    (key : CacheKey) :
    (ofEntries xs).get? file key =
      .ok (((xs.find? (·.file == file)).filter (·.key == key)).map (·.result.values)) := by
  have hkey : (ofEntries xs).key? file = (xs.find? (·.file == file)).map (·.key) := by
    simp only [key?, ofEntries, List.find?_map, Option.map_map]
    rfl
  have hrow : (ofEntries xs).row? file = (xs.find? (·.file == file)).map (·.resultRow) := by
    simp only [row?, ofEntries, List.find?_map]
    rfl
  rw [get?, isCurrent, hkey, hrow]
  cases hfind : xs.find? (·.file == file) with
  | none => rfl
  | some x =>
    have hresult : x.resultRow.result? = .ok (some x.result.values) :=
      ResultRow.result?_ofResult x.file x.key (hstorable x (List.mem_of_find?_eq_some hfind))
    by_cases hx : x.key = key
    · subst hx
      simpa [Option.filter] using hresult
    · simp [Option.filter, hx]

/-- The lengths in the row of an entry are those of its results. -/
theorem countRow_resultRow (h : x.result.values.isStorable) (s : CacheStats) :
    countRow s x.resultRow = .ok ⟨s.files, s.definitions + x.result.definitions.length,
      s.relations + x.result.relations.length⟩ := by
  have hdefinitions : storedLength x.resultRow.definitions =
      .ok (some x.result.definitions.length) := by
    have hlength := storedLength_storedText (WalkResult.fits_definitions h)
    rwa [WalkResult.values, WalkResult.map, List.length_map] at hlength
  have hrelations : storedLength x.resultRow.relations =
      .ok (some x.result.relations.length) := by
    have hlength := storedLength_storedText (WalkResult.fits_relations h)
    rwa [WalkResult.values, WalkResult.map, List.length_map] at hlength
  simp only [countRow, hdefinitions, hrelations, bind, Except.bind]
  rfl

/-- **The tables count the records of all entries.** -/
theorem stats_ofEntries (hstorable : ∀ x ∈ xs, x.result.values.isStorable) :
    (ofEntries xs).stats = .ok ⟨xs.length, (xs.flatMap (·.result.definitions)).length,
      (xs.flatMap (·.result.relations)).length⟩ := by
  have run : ∀ s : CacheStats, (xs.map CacheEntry.resultRow).foldlM countRow s =
      .ok ⟨s.files, s.definitions + (xs.flatMap (·.result.definitions)).length,
        s.relations + (xs.flatMap (·.result.relations)).length⟩ := by
    induction xs with
    | nil => exact fun _ => rfl
    | cons x xs ih =>
      intro s
      have hx := countRow_resultRow (hstorable x List.mem_cons_self) s
      have hxs := ih fun y hy => hstorable y (List.mem_cons_of_mem _ hy)
      rw [List.map_cons, List.foldlM_cons, hx]
      simp only [bind, Except.bind, hxs, List.flatMap_cons, List.length_append, Nat.add_assoc]
  rw [stats, ofEntries, run, List.length_map, Nat.zero_add, Nat.zero_add]

end CacheTables

end ConstGraph
