import ConstGraph.Cache.Tables
import ConstGraph.Proofs.JsonText

/-!
# Stored records are read back

What a walk has found is stored as JSON text and read back without trust.
A record is the one its object stands for (`ofJson_toJson`), and the text
of storable results holds just these results
(`result?_ofResult`): an entry of a cache gives back what was put in.
-/

namespace ConstGraph

/-! ## Records and objects -/

theorem Definition.ofJson_toJson (d : Definition Json Json) : ofJson d.toJson = .ok d := by
  obtain ⟨path, kind, file, line, lines⟩ := d
  cases kind <;>
    simp [ofJson, toJson, RecordField.path, RecordField.kind, RecordField.get, Json.get?,
      Json.ofList, Json.elements?, Json.str?, Storable.toJson, List.lookup_cons,
      DefinitionKind.label, DefinitionKind.ofLabel?, bind, Except.bind, pure, Except.pure]

theorem Relation.ofJson_toJson (r : Relation Json Json) : ofJson r.toJson = .ok r := by
  simp [ofJson, toJson, RecordField.path, RecordField.get, Json.get?, Json.ofList, Json.elements?,
    Storable.toJson, List.lookup_cons, bind, Except.bind, pure, Except.pure]

/-! ## What fits -/

namespace Json

theorem fits_strings (n : Nat) (p : List String) :
    Fits (n + 1) (ofList (p.map Storable.toJson)) := by
  refine .arr fun x hx => ?_
  simp only [List.map_map, List.mem_map] at hx
  obtain ⟨s, -, rfl⟩ := hx
  exact .str

/-- Items can be written if each of them can. -/
theorem areWritable_iff {xs : List Json} : areWritable xs ↔ ∀ x ∈ xs, x.isWritable := by
  induction xs with
  | nil => simp [areWritable]
  | cons x xs ih => rw [areWritable, Bool.and_eq_true, ih, List.forall_mem_cons]

theorem fieldsWritable_iff {fs : List (String × Json)} :
    fieldsWritable fs ↔ ∀ f ∈ fs, f.2.isWritable := by
  induction fs with
  | nil => simp [fieldsWritable]
  | cons f fs ih => rw [fieldsWritable, Bool.and_eq_true, ih, List.forall_mem_cons]

theorem fits_int {n : Nat} {k : Int} (h : (int k).isWritable) : Fits n (int k) :=
  .int (by simpa [isWritable] using h)

end Json

/-- A definition found by a walk, as it is stored. -/
theorem Definition.fits_toJson (n : Nat) (d : Definition)
    (h : (d.map Storable.toJson Storable.toJson).toJson.isWritable) :
    Json.Fits (n + 2) (d.map Storable.toJson Storable.toJson).toJson := by
  obtain ⟨path, kind, file, line, lines⟩ := d
  simp only [map, toJson, Json.isWritable, Json.fieldsWritable, Bool.and_eq_true] at h
  obtain ⟨-, -, -, hline, hlines, -⟩ := h
  refine .obj (by simp) ?_
  simp only [map, List.forall_mem_cons, List.not_mem_nil, false_implies, implies_true, and_true]
  exact ⟨Json.fits_strings n path, .str, .str, Json.fits_int hline, Json.fits_int hlines⟩

/-- A relation found by a walk, as it is stored. -/
theorem Relation.fits_toJson (n : Nat) (r : Relation)
    (h : (r.map Storable.toJson Storable.toJson).toJson.isWritable) :
    Json.Fits (n + 2) (r.map Storable.toJson Storable.toJson).toJson := by
  obtain ⟨path, caller, inMethod, callee, file, line⟩ := r
  simp only [map, toJson, Json.isWritable, Json.fieldsWritable, Bool.and_eq_true] at h
  obtain ⟨-, -, -, -, -, hline, -⟩ := h
  refine .obj (by simp) ?_
  simp only [map, List.forall_mem_cons, List.not_mem_nil, false_implies, implies_true, and_true]
  exact ⟨Json.fits_strings n path, Json.fits_strings n caller, .str, .str, .str,
    Json.fits_int hline⟩

/-! ## Stored texts -/

theorem mapM_eq_ok {α β ε : Type} {f : α → β} {g : β → Except ε α} {xs : List α}
    (h : ∀ x ∈ xs, g (f x) = .ok x) : (xs.map f).mapM g = .ok xs := by
  induction xs with
  | nil => rfl
  | cons x xs ih =>
    have hx := h x List.mem_cons_self
    have hxs := ih fun y hy => h y (List.mem_cons_of_mem x hy)
    rw [List.map_cons, List.mapM_cons, hx, hxs]
    rfl

/-- Records that are read back from their objects are read back from their
text. -/
theorem storedRecords_storedText {α : Type} {write : α → Json} {read : Json → Except RecordError α}
    {rs : List α} (hread : ∀ r ∈ rs, read (write r) = .ok r)
    (hfits : ∀ r ∈ rs, Json.Fits 984 (write r)) :
    storedRecords read (storedText write rs) = .ok (some rs) := by
  have harr : Json.Fits Json.maxNesting (.arr (rs.map write)) := by
    refine .arr fun x hx => ?_
    obtain ⟨r, hr, rfl⟩ := List.mem_map.1 hx
    exact hfits r hr
  simp only [storedRecords, storedText, Json.parse_render harr, Json.elements?, mapM_eq_ok hread]

theorem WalkResult.fits_definitions {r : WalkResult} (h : r.values.isStorable) :
    ∀ d ∈ r.values.definitions, Json.Fits 984 d.toJson := by
  simp only [isStorable, Bool.and_eq_true] at h
  intro d hd
  have hwritable := Json.areWritable_iff.1 h.1 _ (List.mem_map_of_mem hd)
  obtain ⟨d, -, rfl⟩ := List.mem_map.1 hd
  exact d.fits_toJson 982 hwritable

theorem WalkResult.fits_relations {r : WalkResult} (h : r.values.isStorable) :
    ∀ s ∈ r.values.relations, Json.Fits 984 s.toJson := by
  simp only [isStorable, Bool.and_eq_true] at h
  intro s hs
  have hwritable := Json.areWritable_iff.1 h.2 _ (List.mem_map_of_mem hs)
  obtain ⟨s, -, rfl⟩ := List.mem_map.1 hs
  exact s.fits_toJson 982 hwritable

/-- **A row gives back the results it was made from.** -/
theorem ResultRow.result?_ofResult (file : String) (key : CacheKey) {r : WalkResult}
    (h : r.values.isStorable) :
    (ofResult file key r.values).result? = .ok (some r.values) := by
  have hdefinitions : storedRecords Definition.ofJson
      (storedText Definition.toJson r.values.definitions) = .ok (some r.values.definitions) :=
    storedRecords_storedText (fun d _ => d.ofJson_toJson) (WalkResult.fits_definitions h)
  have hrelations : storedRecords Relation.ofJson
      (storedText Relation.toJson r.values.relations) = .ok (some r.values.relations) :=
    storedRecords_storedText (fun r _ => r.ofJson_toJson) (WalkResult.fits_relations h)
  simp only [result?, ofResult, hdefinitions, hrelations, bind, Except.bind]
  rfl

end ConstGraph
