import ConstGraph.Proofs.CacheEntries
import ConstGraph.Proofs.Resolution

/-!
# Paths can be told by their text

A path is shown by its segments with a separator between them. The text
parts again at the first character of the separator, since no segment has
it: so the text of a path with some segment tells all its segments
(`eq_of_intercalate_eq`), even empty ones. That none of them is empty, a
root marker apart, is what tells the path without segments from the rest,
and what keeps the separator from standing first.

`render_identifies_path` says this of paths, and of the texts that stand
for paths anywhere in the document of a graph. A relation resolves to a
path that is defined or to the one it is written with
(`Legible.resolve`), so the texts of resolved paths are among them.
-/

namespace ConstGraph

/-! ## Texts between marks -/

/-- **Joined texts can be parted again** if the separator is not empty and
none of them has a character of it. -/
theorem eq_of_intercalate_eq {separator : List Char} (hseparator : separator ≠ [])
    {xs ys : List (List Char)} (hx : xs ≠ []) (hy : ys ≠ [])
    (hxs : ∀ x ∈ xs, ∀ c ∈ x, c ∉ separator) (hys : ∀ y ∈ ys, ∀ c ∈ y, c ∉ separator)
    (h : separator.intercalate xs = separator.intercalate ys) : xs = ys := by
  obtain ⟨mark, rest, rfl⟩ := List.exists_cons_of_ne_nil hseparator
  have hmark : ∀ {zs : List (List Char)} {z : List Char}, (∀ z ∈ zs, ∀ c ∈ z, c ∉ mark :: rest) →
      z ∈ zs → mark ∉ z := by
    intro zs z hzs hz hmem
    exact hzs z hz mark hmem List.mem_cons_self
  induction xs generalizing ys with
  | nil => exact absurd rfl hx
  | cons x xs ih =>
    obtain ⟨y, ys, rfl⟩ := List.exists_cons_of_ne_nil hy
    have hfirst := hmark hxs List.mem_cons_self
    have hfirst' := hmark hys List.mem_cons_self
    -- a text goes on behind its first part exactly if it has a mark
    match xs, ys with
    | [], [] => simpa using h
    | [], y' :: ys =>
      refine absurd ?_ hfirst
      rw [List.intercalate_singleton, List.intercalate_cons_cons] at h
      simp [h]
    | x' :: xs, [] =>
      refine absurd ?_ hfirst'
      rw [List.intercalate_singleton, List.intercalate_cons_cons] at h
      simp [← h]
    | x' :: xs, y' :: ys =>
      rw [List.intercalate_cons_cons, List.intercalate_cons_cons, List.append_assoc,
        List.append_assoc, List.cons_append, List.cons_append] at h
      obtain ⟨rfl, hback⟩ := append_cons_inj hfirst hfirst' h
      have hrest := ih (List.cons_ne_nil x' xs) (List.cons_ne_nil y' ys)
        (fun z hz => hxs z (List.mem_cons_of_mem x hz))
        (fun z hz => hys z (List.mem_cons_of_mem x hz)) (List.append_cancel_left hback)
      rw [hrest]

/-! ## Legible paths -/

namespace ConstPath

variable {separator : String} {p q : ConstPath}

/-- The path can be read from its text: no segment has a character of the
separator, and none is empty but a root marker with something behind it. -/
structure Legible (separator : String) (p : ConstPath) : Prop where
  /-- No segment has a character of the separator. -/
  apart : ∀ x ∈ p, ∀ c ∈ x.toList, c ∉ separator.toList
  /-- No segment but the first is empty. -/
  filled : "" ∉ p.tail
  /-- If the first segment is empty there is another. -/
  continued : p ≠ [""]

theorem isRooted_cons {x : String} : isRooted (x :: p) = true ↔ x = "" := by
  simp [isRooted, Segment.rootMarker]

theorem toList_render (separator : String) (p : ConstPath) :
    (p.render separator).toList = separator.toList.intercalate (p.map String.toList) := by
  rw [render, String.toList_intercalate]

/-- A legible path with a segment has a text. -/
theorem Legible.render_ne_empty (h : Legible separator p) (hseparator : separator ≠ "")
    (hp : p ≠ []) : p.render separator ≠ "" := by
  obtain ⟨x, p, rfl⟩ := List.exists_cons_of_ne_nil hp
  cases p with
  | nil =>
    have hx : x ≠ "" := fun hx => h.continued (by rw [hx])
    simpa [render] using hx
  | cons y p =>
    intro hempty
    rw [render, String.intercalate_cons_cons, String.append_eq_empty_iff,
      String.append_eq_empty_iff] at hempty
    exact hseparator hempty.1.2

/-- **Legible paths with the same text are the same.** -/
theorem Legible.eq_of_render_eq (hp : Legible separator p) (hq : Legible separator q)
    (hseparator : separator ≠ "") (h : p.render separator = q.render separator) : p = q := by
  by_cases hpnil : p = []
  · by_contra hne
    have hq' : q ≠ [] := fun hq => hne (hpnil.trans hq.symm)
    refine hq.render_ne_empty hseparator hq' ?_
    rw [← h, hpnil]
    rfl
  by_cases hqnil : q = []
  · refine absurd ?_ (hp.render_ne_empty hseparator hpnil)
    rw [h, hqnil]
    rfl
  have happart : ∀ {r : ConstPath}, Legible separator r →
      ∀ x ∈ r.map String.toList, ∀ c ∈ x, c ∉ separator.toList := by
    intro r hr x hx
    obtain ⟨y, hy, rfl⟩ := List.mem_map.1 hx
    exact hr.apart y hy
  have hmarks : separator.toList ≠ [] := by simpa using hseparator
  have htexts : p.map String.toList = q.map String.toList := by
    refine eq_of_intercalate_eq hmarks (by simpa using hpnil) (by simpa using hqnil) (happart hp)
      (happart hq) ?_
    rw [← toList_render, ← toList_render, h]
  exact List.map_injective_iff.2 (fun _ _ => String.toList_injective) htexts

/-- **The separator stands first exactly before a path from the root.** -/
theorem Legible.separator_first_iff (h : Legible separator p) (hseparator : separator ≠ "") :
    (∃ rest, p.render separator = separator ++ rest) ↔ p.isRooted = true := by
  cases p with
  | nil =>
    refine iff_of_false ?_ Bool.false_ne_true
    rintro ⟨rest, hrest⟩
    exact hseparator (String.append_eq_empty_iff.1 hrest.symm).1
  | cons x p =>
    rw [isRooted_cons]
    constructor
    · rintro ⟨rest, hrest⟩
      by_contra hx
      -- the first character is one of the first segment, and not of the separator
      have hx' : x.toList ≠ [] := by simpa using hx
      have hmarks : separator.toList ≠ [] := by simpa using hseparator
      obtain ⟨c, cs, hc⟩ := List.exists_cons_of_ne_nil hx'
      obtain ⟨mark, marks, hmark⟩ := List.exists_cons_of_ne_nil hmarks
      have hlist := congrArg String.toList hrest
      have hfirst : c = mark := by
        rw [toList_render, String.toList_append, hmark] at hlist
        cases p with
        | nil => simp_all
        | cons y p => simp_all [List.intercalate_cons_cons]
      have hout := h.apart x List.mem_cons_self c (by simp [hc])
      exact hout (by simp [hmark, hfirst])
    · rintro rfl
      cases p with
      | nil => exact absurd rfl h.continued
      | cons y p =>
        refine ⟨render separator (y :: p), ?_⟩
        rw [render, String.intercalate_cons_cons, String.empty_append]
        rfl

theorem Legible.unroot (h : Legible separator p) : Legible separator p.unroot := by
  rw [ConstPath.unroot]
  split
  · have hsegments : ∀ x ∈ p.tail, x ≠ "" := by
      intro x hx hempty
      exact h.filled (hempty ▸ hx)
    refine ⟨fun x hx => h.apart x (List.mem_of_mem_tail hx), ?_, ?_⟩
    · exact fun hempty => hsegments "" (List.mem_of_mem_tail hempty) rfl
    · intro hempty
      exact hsegments "" (by simp [hempty]) rfl
  · exact h

end ConstPath

/-- What is found of a relation among legible definitions is legible. -/
theorem ConstPath.Legible.resolve {separator : String} {store : DefinitionStore} {r : Relation}
    (hstore : ∀ d ∈ store.toList, ConstPath.Legible separator d.path)
    (hr : ConstPath.Legible separator r.path) :
    ConstPath.Legible separator (r.resolve store) := by
  rw [Relation.resolve]
  cases hfound : r.candidates.find? store.contains with
  | some p =>
    have hcontains := List.find?_some hfound
    obtain ⟨d, hd, hpath⟩ := (store.contains_iff p).1 hcontains
    rw [Option.getD_some, ← eq_of_beq hpath]
    exact hstore d hd
  | none =>
    rw [Option.getD_none, Relation.globalPath]
    split
    · exact hr.unroot
    · exact hr

/-! ## Paths in the document -/

namespace DependencyGraph

variable {g : DependencyGraph} {separator : String} {text : Json} {p : ConstPath}

/-- Every path of a graph is legible. -/
structure IsLegible (g : DependencyGraph) (separator : String) : Prop where
  /-- What is defined. -/
  definition : ∀ d ∈ g.definitions, ConstPath.Legible separator d.path
  /-- What relations name. -/
  relation : ∀ r ∈ g.relations, ConstPath.Legible separator r.path
  /-- What relations stand in. -/
  caller : ∀ r ∈ g.relations, ConstPath.Legible separator r.caller

/-- A text stands for a path in some entry of the document. -/
inductive ShowsPath (g : DependencyGraph) (separator : String) (text : Json) : ConstPath → Prop
  /-- It is what a definition defines. -/
  | definition {d : Definition} : d ∈ g.definitions →
      (g.definitionEntry separator d).get? "namespace" = some text →
      ShowsPath g separator text d.path
  /-- It is what a relation names. -/
  | relation {r : Relation} : r ∈ g.relations →
      (g.relationEntry separator r).get? "namespace" = some text → ShowsPath g separator text r.path
  /-- It is what a relation refers to. -/
  | resolved {r : Relation} : r ∈ g.relations →
      (g.relationEntry separator r).get? "resolved_namespace" = some text →
      ShowsPath g separator text (g.resolve r)
  /-- It is what a relation stands in. -/
  | caller {r : Relation} : r ∈ g.relations →
      (g.relationEntry separator r).get? "caller" = some text → ShowsPath g separator text r.caller

theorem ShowsPath.text_eq (h : g.ShowsPath separator text p) :
    text = .str (p.render separator) := by
  rw [ConstPath.render, ← ConstPath.shown_eq_intercalate]
  cases h with
  | definition _ htext => exact (Option.some_inj.1 htext).symm
  | relation _ htext => exact (Option.some_inj.1 htext).symm
  | resolved _ htext => exact (Option.some_inj.1 htext).symm
  | caller _ htext => exact (Option.some_inj.1 htext).symm

theorem ShowsPath.legible (h : g.ShowsPath separator text p) (hg : g.IsLegible separator) :
    ConstPath.Legible separator p := by
  cases h with
  | definition hd => exact hg.definition _ hd
  | relation hr => exact hg.relation _ hr
  | resolved hr => exact ConstPath.Legible.resolve hg.definition (hg.relation _ hr)
  | caller hr => exact hg.caller _ hr

end DependencyGraph

/-- **The text of a path tells the path.** Under a separator that is not
empty, two legible paths with one text are one path, and the text starts
with the separator exactly if the path is written from the root. So in the
document of a graph of legible paths a text stands for one path only,
whether it is that of a definition or of a relation. -/
theorem render_identifies_path {separator : String} (hseparator : separator ≠ "") :
    (∀ p q, ConstPath.Legible separator p → ConstPath.Legible separator q →
        p.render separator = q.render separator → p = q) ∧
      (∀ p, ConstPath.Legible separator p →
        ((∃ rest, p.render separator = separator ++ rest) ↔ p.isRooted = true)) ∧
      ∀ (g : DependencyGraph), g.IsLegible separator → ∀ text p q,
        g.ShowsPath separator text p → g.ShowsPath separator text q → p = q := by
  refine ⟨fun p q hp hq h => hp.eq_of_render_eq hq hseparator h,
    fun p hp => hp.separator_first_iff hseparator, ?_⟩
  intro g hg text p q hp hq
  have htext : Json.str (p.render separator) = .str (q.render separator) :=
    hp.text_eq.symm.trans hq.text_eq
  exact (hp.legible hg).eq_of_render_eq (hq.legible hg) hseparator (Json.str.inj htext)

/-- A class, and a mention of it by its path from the root. -/
def namedFromRoot : DependencyGraph :=
  ⟨.ofList [⟨["A", "B"], .ofClass, "a.rb", 1, 2⟩], [⟨["", "A", "B"], ["C"], "", "", "a.rb", 3⟩],
    .empty, ["a.rb"], []⟩

/-- The path it is mentioned by and the path it has are shown by two texts,
and neither text stands for another path. -/
theorem namedFromRoot_told_apart :
    namedFromRoot.IsLegible "::" ∧
      namedFromRoot.ShowsPath "::" (.str "A::B") ["A", "B"] ∧
      namedFromRoot.ShowsPath "::" (.str "::A::B") ["", "A", "B"] ∧
      (∀ p, namedFromRoot.ShowsPath "::" (.str "A::B") p → p = ["A", "B"]) ∧
      ∀ p, namedFromRoot.ShowsPath "::" (.str "::A::B") p → p = ["", "A", "B"] := by
  have hpath : ConstPath.Legible "::" ["A", "B"] := by constructor <;> simp
  have hrooted : ConstPath.Legible "::" ["", "A", "B"] := by constructor <;> simp
  have hcaller : ConstPath.Legible "::" ["C"] := by constructor <;> simp
  have hlegible : namedFromRoot.IsLegible "::" := by
    refine ⟨?_, ?_, ?_⟩
    · intro d hd
      obtain rfl := List.mem_singleton.1 (DefinitionStore.mem_toList_ofList.1 hd)
      exact hpath
    · intro r hr
      obtain rfl := List.mem_singleton.1 hr
      exact hrooted
    · intro r hr
      obtain rfl := List.mem_singleton.1 hr
      exact hcaller
  have hdefined : ⟨["A", "B"], .ofClass, "a.rb", 1, 2⟩ ∈ namedFromRoot.definitions :=
    DefinitionStore.mem_toList_ofList.2 List.mem_cons_self
  have hmentioned : ⟨["", "A", "B"], ["C"], "", "", "a.rb", 3⟩ ∈ namedFromRoot.relations :=
    List.mem_cons_self
  have htext : ConstPath.shown "::" ["A", "B"] = "A::B" := by decide +kernel
  have htext' : ConstPath.shown "::" ["", "A", "B"] = "::A::B" := by decide +kernel
  have hdefinition : namedFromRoot.ShowsPath "::" (.str "A::B") ["A", "B"] :=
    .definition hdefined (congrArg (fun text => some (Json.str text)) htext)
  have hrelation : namedFromRoot.ShowsPath "::" (.str "::A::B") ["", "A", "B"] :=
    .relation hmentioned (congrArg (fun text => some (Json.str text)) htext')
  have hone := (render_identifies_path (by decide)).2.2 namedFromRoot hlegible
  exact ⟨hlegible, hdefinition, hrelation, fun p hp => hone _ p _ hp hdefinition,
    fun p hp => hone _ p _ hp hrelation⟩

end ConstGraph
