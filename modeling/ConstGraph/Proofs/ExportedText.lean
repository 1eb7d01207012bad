import ConstGraph.Mismatch
import ConstGraph.Proofs.MirroredFlags
import ConstGraph.Proofs.StoredRecords

/-!
# The exported text

The text of a document is ASCII and is read back as that document, so
nothing of a graph is lost on the way: neither a name nor a line, whatever
the layout.

A graph is exported as a graph of values, which may hold anything and so
may fail to have a text. The values of a graph of texts and integers
(`DependencyGraph.values`) have one: comparing, looking up and marking work
on texts as values as they do on texts, so the document is the same
(`document_values`). `exported_faithful` puts this together.
-/

namespace ConstGraph

/-! ## ASCII -/

namespace Json

/-- All characters are ASCII. -/
def AllAscii (cs : List Char) : Prop := ∀ c ∈ cs, c.toNat < 128

instance (cs : List Char) : Decidable (AllAscii cs) :=
  decidable_of_iff (cs.all (·.toNat < 128)) (by simp [AllAscii])

theorem allAscii_append {cs ds : List Char} (hcs : AllAscii cs) (hds : AllAscii ds) :
    AllAscii (cs ++ ds) := by
  intro c hc
  rcases List.mem_append.1 hc with hc | hc
  · exact hcs c hc
  · exact hds c hc

theorem allAscii_cons {c : Char} {cs : List Char} (hc : c.toNat < 128) (hcs : AllAscii cs) :
    AllAscii (c :: cs) := by
  intro d hd
  rcases List.mem_cons.1 hd with rfl | hd
  · exact hc
  · exact hcs d hd

theorem hexDigit_lt {n : Nat} (h : n < 16) : (hexDigit n).toNat < 128 := by
  revert h n
  decide

theorem allAscii_unitEscape (n : Nat) : AllAscii (unitEscape n) := by
  intro c hc
  simp only [unitEscape, List.mem_cons, List.not_mem_nil, or_false] at hc
  have hmod : ∀ m : Nat, (hexDigit (m % 16)).toNat < 128 := fun m => hexDigit_lt (by omega)
  rcases hc with rfl | rfl | rfl | rfl | rfl | rfl
  · decide
  · decide
  · exact hmod _
  · exact hmod _
  · exact hmod _
  · exact hmod _

/-- **Every character is written in ASCII**: by itself only if it is. -/
theorem allAscii_escape (c : Char) : AllAscii (escape c) := by
  have hshort : ∀ d : Char, d.toNat < 128 → AllAscii ['\\', d] := fun d hd =>
    allAscii_cons (by decide) (allAscii_cons hd (by decide))
  unfold escape
  split_ifs with _ _ _ _ _ _ _ hprintable
  · exact hshort _ (by decide)
  · exact hshort _ (by decide)
  · exact hshort _ (by decide)
  · exact hshort _ (by decide)
  · exact hshort _ (by decide)
  · exact hshort _ (by decide)
  · exact hshort _ (by decide)
  · intro d hd
    obtain rfl := List.mem_singleton.1 hd
    omega
  · exact allAscii_unitEscape _
  · exact allAscii_append (allAscii_unitEscape _) (allAscii_unitEscape _)

theorem allAscii_quote (s : List Char) : AllAscii (quote s) := by
  refine allAscii_cons (by decide) (allAscii_append ?_ ?_)
  · intro c hc
    obtain ⟨d, -, hc⟩ := List.mem_flatMap.1 hc
    exact allAscii_escape d c hc
  · decide

theorem allAscii_gap (l : Layout) (depth : Nat) : AllAscii (l.gap depth) := by
  intro c hc
  have hgap := isGap_of_mem_gap l depth c hc
  simp only [isGap, Bool.or_eq_true, beq_iff_eq] at hgap
  rcases hgap with ((rfl | rfl) | rfl) | rfl <;> decide

theorem allAscii_separator (l : Layout) (depth : Nat) : AllAscii (l.separator depth) := by
  unfold Layout.separator
  split
  · decide
  · exact allAscii_cons (by decide) (allAscii_gap l depth)

theorem allAscii_toDigits (n : Nat) : AllAscii (Nat.toDigits 10 n) := by
  intro c hc
  have hdigit := isDigit_of_mem_toDigits hc
  rw [isDigit_eq] at hdigit
  have hrange : 48 ≤ c.toNat ∧ c.toNat ≤ 57 := Char.isDigit_iff_toNat.1 hdigit
  omega

theorem allAscii_int (k : Int) : AllAscii (toString k).toList := by
  rw [Int.toString_eq_repr, Int.repr_eq_if]
  split
  · rw [Nat.toList_repr]
    exact allAscii_toDigits _
  · rw [String.toList_append, Nat.toList_repr]
    exact allAscii_append (by decide) (allAscii_toDigits _)

/-- The value is written in ASCII, in front of what is ASCII itself. -/
def WritesAscii (j : Json) : Prop :=
  ∀ l depth rest, AllAscii rest → AllAscii (write l depth j rest)

variable {l : Layout} {depth : Nat} {rest : List Char}

theorem allAscii_writeItems {xs : List Json} (hxs : ∀ x ∈ xs, x.WritesAscii)
    (h : AllAscii rest) : AllAscii (writeItems l depth xs rest) := by
  induction xs with
  | nil => exact h
  | cons x xs ih =>
    obtain ⟨hx, hxs⟩ := List.forall_mem_cons.1 hxs
    exact allAscii_append (allAscii_separator l depth) (hx l depth _ (ih hxs))

theorem allAscii_field {key : String} {x : Json} (hx : x.WritesAscii) (h : AllAscii rest) :
    AllAscii (quote key.toList ++ ':' :: ' ' :: write l depth x rest) :=
  allAscii_append (allAscii_quote _)
    (allAscii_cons (by decide) (allAscii_cons (by decide) (hx l depth rest h)))

theorem allAscii_writeFields {fs : List (String × Json)} (hfs : ∀ f ∈ fs, f.2.WritesAscii)
    (h : AllAscii rest) : AllAscii (writeFields l depth fs rest) := by
  induction fs with
  | nil => exact h
  | cons f fs ih =>
    obtain ⟨hf, hfs⟩ := List.forall_mem_cons.1 hfs
    exact allAscii_append (allAscii_separator l depth) (allAscii_field hf (ih hfs))

/-- **What fits is written in ASCII**, whatever its texts are. -/
theorem writesAscii_of_fits {n : Nat} {j : Json} (h : Fits n j) : j.WritesAscii := by
  induction h with
  | null => exact fun l depth rest h => allAscii_append (by decide : AllAscii ['n', 'u', 'l', 'l']) h
  | @bool _ b =>
    intro l depth rest h
    cases b with
    | true => exact allAscii_append (by decide : AllAscii ['t', 'r', 'u', 'e']) h
    | false => exact allAscii_append (by decide : AllAscii ['f', 'a', 'l', 's', 'e']) h
  | @int _ k hk => exact fun l depth rest h => allAscii_append (allAscii_int k) h
  | str => exact fun l depth rest h => allAscii_append (allAscii_quote _) h
  | @arr n xs hxs ih =>
    intro l depth rest h
    cases xs with
    | nil => exact allAscii_append (by decide : AllAscii ['[', ']']) h
    | cons x xs =>
      obtain ⟨hx, hxs⟩ := List.forall_mem_cons.1 ih
      have hclosed : AllAscii (l.gap depth ++ ']' :: rest) :=
        allAscii_append (allAscii_gap l depth) (allAscii_cons (by decide) h)
      rw [write]
      exact allAscii_cons (by decide) (allAscii_append (allAscii_gap l _)
        (hx l _ _ (allAscii_writeItems hxs hclosed)))
  | @obj n fs hnodup hfs ih =>
    intro l depth rest h
    cases fs with
    | nil => exact allAscii_append (by decide : AllAscii ['\x7b', '\x7d']) h
    | cons f fs =>
      obtain ⟨hf, hfs⟩ := List.forall_mem_cons.1 ih
      have hclosed : AllAscii (l.gap depth ++ '\x7d' :: rest) :=
        allAscii_append (allAscii_gap l depth) (allAscii_cons (by decide) h)
      rw [write]
      exact allAscii_cons (by decide) (allAscii_append (allAscii_gap l _)
        (allAscii_field hf (allAscii_writeFields hfs hclosed)))

/-- **What fits can be written.** -/
theorem isWritable_of_fits {n : Nat} {j : Json} (h : Fits n j) : j.isWritable := by
  induction h with
  | null => rfl
  | bool => rfl
  | int hk => simp [isWritable, hk]
  | str => rfl
  | arr _ ih => exact areWritable_iff.2 ih
  | obj _ _ ih => exact fieldsWritable_iff.2 ih

end Json

/-! ## Texts as values -/

namespace ConstPath

/-- A path of texts as a path of values. -/
def values (p : ConstPath) : ConstPath Json := p.map Storable.toJson

theorem values_beq (p q : ConstPath) : (p.values == q.values) = (p == q) := by
  induction p generalizing q with
  | nil => cases q <;> rfl
  | cons s p ih =>
    cases q with
    | nil => rfl
    | cons t q =>
      have hfirst : (Json.str s == Json.str t) = (s == t) := rfl
      simp only [values, List.map_cons, List.cons_beq_cons] at ih ⊢
      rw [ih q]
      exact congrArg (· && (p == q)) hfirst

theorem compare_values (p q : ConstPath) : compare p.values q.values = compare p q := by
  induction p generalizing q with
  | nil => cases q <;> rfl
  | cons s p ih =>
    cases q with
    | nil => rfl
    | cons t q =>
      have hrest := ih q
      simp only [values, List.map_cons, List.compare_cons_cons] at hrest ⊢
      rw [hrest]
      rfl

theorem isRooted_values (p : ConstPath) : p.values.isRooted = p.isRooted := by
  cases p <;> rfl

theorem unroot_values (p : ConstPath) : p.values.unroot = p.unroot.values := by
  unfold unroot
  rw [isRooted_values]
  split
  · exact List.map_tail.symm
  · rfl

theorem scopes_values (p : ConstPath) : p.values.scopes = p.scopes.map values := by
  simp [scopes, values, List.map_take]

theorem shown_values (separator : String) (p : ConstPath) :
    p.values.shown separator = p.shown separator := by
  rw [shown, shown, values, List.map_map]
  rfl

end ConstPath

/-- A definition of texts and integers as one of values. -/
def Definition.values (d : Definition) : Definition Json Json :=
  d.map Storable.toJson Storable.toJson

/-- A relation of texts and an integer as one of values. -/
def Relation.values (r : Relation) : Relation Json Json :=
  r.map Storable.toJson Storable.toJson

theorem Definition.values_beq (a b : Definition) : (a.values == b.values) = (a == b) := by
  obtain ⟨path, kind, file, line, lines⟩ := a
  obtain ⟨path', kind', file', line', lines'⟩ := b
  have hpath := path.values_beq path'
  exact congrArg (· && _) hpath

theorem Relation.values_beq (a b : Relation) : (a.values == b.values) = (a == b) := by
  obtain ⟨path, caller, inMethod, callee, file, line⟩ := a
  obtain ⟨path', caller', inMethod', callee', file', line'⟩ := b
  have hpath := path.values_beq path'
  have hcaller := caller.values_beq caller'
  exact congrArg₂ (fun a b => a && (b && _)) hpath hcaller

/-! ## The graph of values -/

namespace DefinitionStore

/-- The store of the values of the definitions. They are in order already. -/
def values (s : DefinitionStore) : DefinitionStore Json Json where
  entries := s.entries.map Definition.values
  sorted := by
    rw [Array.toList_map, List.pairwise_map]
    refine s.sorted.imp fun {a b} hab => ?_
    have hpath : compare a.values.path b.values.path = compare a.path b.path :=
      ConstPath.compare_values a.path b.path
    rw [Definition.precedes_iff, hpath]
    exact (Definition.precedes_iff a b).1 hab

theorem toList_values (s : DefinitionStore) : s.values.toList = s.toList.map Definition.values :=
  Array.toList_map

theorem contains_values (s : DefinitionStore) (p : ConstPath) :
    s.values.contains p.values = s.contains p := by
  rw [Bool.eq_iff_iff, contains_iff, contains_iff, toList_values]
  simp only [List.mem_map, exists_exists_and_eq_and]
  -- values may be equal without being the same, but those of texts are not
  refine exists_congr fun d => and_congr_right fun _ => ?_
  rw [← ConstPath.values_beq]
  rfl

end DefinitionStore

namespace Relation

theorem isAbsolute_values (r : Relation) : r.values.isAbsolute = r.isAbsolute := by
  have hrooted : r.values.path.isRooted = r.path.isRooted := r.path.isRooted_values
  have hempty : r.values.caller.isEmpty = r.caller.isEmpty := List.isEmpty_map
  rw [isAbsolute, isAbsolute, hrooted, hempty]

theorem globalPath_values (r : Relation) : r.values.globalPath = r.globalPath.values := by
  rw [globalPath, globalPath, isAbsolute_values]
  split
  · exact r.path.unroot_values
  · rfl

theorem candidates_values (r : Relation) :
    r.values.candidates = r.candidates.map ConstPath.values := by
  rw [candidates, candidates, isAbsolute_values]
  split
  · exact congrArg (fun p => [p]) r.path.unroot_values
  · have hscopes : r.values.caller.scopes = r.caller.scopes.map ConstPath.values :=
      r.caller.scopes_values
    rw [hscopes, List.map_map, List.map_map]
    exact List.map_congr_left fun p _ => List.map_append.symm

/-- **A relation resolves alike** among texts and among values. -/
theorem resolve_values (r : Relation) (s : DefinitionStore) :
    r.values.resolve s.values = (r.resolve s).values := by
  have hcontains : s.values.contains ∘ ConstPath.values = s.contains :=
    funext s.contains_values
  rw [resolve, resolve, candidates_values, globalPath_values, List.find?_map, hcontains]
  cases r.candidates.find? s.contains <;> rfl

end Relation

namespace CircularFlags

/-- The values of what is marked. -/
def values (f : CircularFlags) : CircularFlags Json Json :=
  ⟨f.definitions.map Definition.values, f.relations.map Relation.values⟩

theorem hasDefinition_values (f : CircularFlags) (d : Definition) :
    f.values.hasDefinition d.values = f.hasDefinition d := by
  simp only [hasDefinition, values, List.contains_eq_any_beq, List.any_map]
  simp only [Function.comp_def, Definition.values_beq]

theorem hasRelation_values (f : CircularFlags) (r : Relation) :
    f.values.hasRelation r.values = f.hasRelation r := by
  simp only [hasRelation, values, List.contains_eq_any_beq, List.any_map]
  simp only [Function.comp_def, Relation.values_beq]

end CircularFlags

namespace DependencyGraph

/-- The graph of the values of a graph. -/
def values (g : DependencyGraph) : DependencyGraph Json Json :=
  ⟨g.store.values, g.relations.map Relation.values, g.flags.values, g.files, g.skipped⟩

theorem definitions_values (g : DependencyGraph) :
    g.values.definitions = g.definitions.map Definition.values := g.store.toList_values

theorem definitionEntry_values (g : DependencyGraph) (separator : String) (d : Definition) :
    g.values.definitionEntry separator d.values = g.definitionEntry separator d := by
  have hpath : d.values.path.shown separator = d.path.shown separator :=
    ConstPath.shown_values separator d.path
  have hcircular : g.values.flags.hasDefinition d.values = g.flags.hasDefinition d :=
    g.flags.hasDefinition_values d
  rw [definitionEntry, hpath, hcircular]
  rfl

theorem relationEntry_values (g : DependencyGraph) (separator : String) (r : Relation) :
    g.values.relationEntry separator r.values = g.relationEntry separator r := by
  have hpath : r.values.path.shown separator = r.path.shown separator :=
    ConstPath.shown_values separator r.path
  have hcaller : r.values.caller.shown separator = r.caller.shown separator :=
    ConstPath.shown_values separator r.caller
  have hresolved : (g.values.resolve r.values).shown separator = (g.resolve r).shown separator :=
    (congrArg _ (r.resolve_values g.store)).trans (ConstPath.shown_values separator _)
  have hcircular : g.values.flags.hasRelation r.values = g.flags.hasRelation r :=
    g.flags.hasRelation_values r
  rw [relationEntry, hpath, hcaller, hresolved, hcircular]
  rfl

/-- **The values of a graph make the same document.** -/
theorem document_values (g : DependencyGraph) (separator : String) :
    g.values.document separator = g.document separator := by
  have hdefinitions : g.values.definitions.map (g.values.definitionEntry separator) =
      g.definitions.map (g.definitionEntry separator) := by
    rw [definitions_values, List.map_map]
    exact List.map_congr_left fun d _ => g.definitionEntry_values separator d
  have hrelations : g.values.relations.map (g.values.relationEntry separator) =
      g.relations.map (g.relationEntry separator) := by
    rw [values, List.map_map]
    exact List.map_congr_left fun r _ => g.relationEntry_values separator r
  rw [document, hdefinitions, hrelations]
  rfl

/-! ## The text -/

theorem isAtomic_values (g : DependencyGraph) : g.values.isAtomic := by
  have hpath : ∀ p : ConstPath, p.values.isAtomic := by
    intro p
    simp [ConstPath.isAtomic, ConstPath.values, Storable.toJson, Json.isAtom]
  have hdefinition : ∀ d : Definition, d.values.isAtomic := by
    intro d
    have hd : d.values.path.isAtomic := hpath d.path
    rw [Definition.isAtomic, hd]
    rfl
  have hrelation : ∀ r : Relation, r.values.isAtomic := by
    intro r
    have hr : r.values.path.isAtomic := hpath r.path
    have hcaller : r.values.caller.isAtomic := hpath r.caller
    rw [Relation.isAtomic, hr, hcaller]
    rfl
  rw [isAtomic, Bool.and_eq_true, List.all_eq_true, List.all_eq_true, definitions_values]
  constructor
  · intro d hd
    obtain ⟨d, -, rfl⟩ := List.mem_map.1 hd
    exact hdefinition d
  · intro r hr
    obtain ⟨r, -, rfl⟩ := List.mem_map.1 hr
    exact hrelation r

theorem isTextual_values (g : DependencyGraph) : g.values.isTextual := by
  have hpath : ∀ p : ConstPath, p.values.isTextual := by
    intro p
    simp [ConstPath.isTextual, ConstPath.values, Storable.toJson, Json.isText]
  rw [isTextual, Bool.and_eq_true, List.all_eq_true, List.all_eq_true, definitions_values]
  constructor
  · intro d hd
    obtain ⟨d, -, rfl⟩ := List.mem_map.1 hd
    exact hpath d.path
  · intro r hr
    obtain ⟨r, -, rfl⟩ := List.mem_map.1 hr
    have hresolved : (g.values.resolve r.values).isTextual := by
      have hresolve : g.values.resolve r.values = (g.resolve r).values := r.resolve_values g.store
      rw [hresolve]
      exact hpath _
    simp only [Bool.and_eq_true]
    exact ⟨⟨hpath r.path, hresolved⟩, hpath r.caller⟩

variable {g : DependencyGraph}

/-- A document fits if its lines do. -/
theorem fits_document (n : Nat) (separator : String)
    (hdefinitions : ∀ d ∈ g.definitions, isOverlong d.line = false ∧ isOverlong d.lines = false)
    (hrelations : ∀ r ∈ g.relations, isOverlong r.line = false) :
    Json.Fits (n + 3) (g.document separator) := by
  refine .obj (by simp) ?_
  simp only [List.forall_mem_cons, List.not_mem_nil, false_implies, implies_true, and_true]
  constructor
  · refine .arr fun entry hentry => ?_
    obtain ⟨d, hd, rfl⟩ := List.mem_map.1 hentry
    obtain ⟨hline, hlines⟩ := hdefinitions d hd
    refine .obj (by simp) ?_
    simp only [List.forall_mem_cons, List.not_mem_nil, false_implies, implies_true, and_true]
    exact ⟨.str, .str, .bool, .str, .int hline, .int hlines⟩
  · refine .arr fun entry hentry => ?_
    obtain ⟨r, hr, rfl⟩ := List.mem_map.1 hentry
    refine .obj (by simp) ?_
    simp only [List.forall_mem_cons, List.not_mem_nil, false_implies, implies_true, and_true]
    exact ⟨.str, .str, .str, .str, .str, .str, .str, .bool, .int (hrelations r hr)⟩

/-- **The exported text is faithful.** Whatever the names of a graph are, if
its lines are not too long then it has a document that shows every record
with its own fields, in the order of the graph. Under every separator and
every indent the graph has a text, and that text is ASCII and is read back
as the document; so what is read does not depend on the indent. -/
theorem exported_faithful (separator : String)
    (hdefinitions : ∀ d ∈ g.definitions, isOverlong d.line = false ∧ isOverlong d.lines = false)
    (hrelations : ∀ r ∈ g.relations, isOverlong r.line = false) :
    g.IsShownBy separator (g.document separator) ∧
      ∀ indent : Option Int, ∃ text,
        g.values.exportedValues separator (.ofIndent indent) = .ok text ∧
          Json.AllAscii text.toList ∧ Json.parse text = .ok (g.document separator) := by
  have hfits : Json.Fits Json.maxNesting (g.document separator) :=
    fits_document 982 separator hdefinitions hrelations
  -- the document is fixed before the indent, so all texts are read as one value
  refine ⟨g.isShownBy_document separator, fun indent => ?_⟩
  refine ⟨(g.document separator).render (.ofIndent indent), ?_, ?_, Json.parse_render hfits _⟩
  · have hatomic := g.isAtomic_values
    have htextual := g.isTextual_values
    rw [exportedValues, hatomic, htextual, exported, document_values, Json.isWritable_of_fits hfits]
    rfl
  · rw [Json.render, String.toList_ofList]
    exact Json.writesAscii_of_fits hfits _ _ _ (by decide)

/-- A graph with a quote, a line break and a character beyond the basic
plane in its names, and with lines below zero. -/
def oddlyNamed : DependencyGraph :=
  ⟨.ofList [⟨["A\"", "\n"], .ofClass, "é.rb", -1, 0⟩], [⟨["", "😀"], [], "", "new", "é.rb", -7⟩],
    .empty, ["é.rb"], []⟩

/-- Its lines are short, so it has a text under every indent. -/
theorem oddlyNamed_exported :
    (∀ d ∈ oddlyNamed.definitions, isOverlong d.line = false ∧ isOverlong d.lines = false) ∧
      (∀ r ∈ oddlyNamed.relations, isOverlong r.line = false) ∧
      ∃ text, oddlyNamed.values.exportedValues "::" (.ofIndent (some (-2))) = .ok text ∧
        Json.AllAscii text.toList ∧ Json.parse text = .ok (oddlyNamed.document "::") := by
  have hdefinitions : ∀ d ∈ oddlyNamed.definitions,
      isOverlong d.line = false ∧ isOverlong d.lines = false := by
    intro d hd
    obtain rfl := List.mem_singleton.1 (DefinitionStore.mem_toList_ofList.1 hd)
    decide +kernel
  have hrelations : ∀ r ∈ oddlyNamed.relations, isOverlong r.line = false := by
    intro r hr
    obtain rfl := List.mem_singleton.1 hr
    decide +kernel
  exact ⟨hdefinitions, hrelations,
    (exported_faithful "::" hdefinitions hrelations).2 (some (-2))⟩

end DependencyGraph

end ConstGraph
