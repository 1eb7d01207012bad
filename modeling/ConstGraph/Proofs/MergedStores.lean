import ConstGraph.Proofs.SortedStore
import ConstGraph.StoreTable

/-!
# Merging stores is building one

A store sorts what it is given, and stores that are merged are sorted
again. The second sort leaves no trace of the first: a list in order is
determined by what it holds of each class of definitions that tie
(`eq_of_filter_ties`), and a stable sort moves nothing within a class. So
two lists that agree class by class make one store (`ofList_congr`), and a
part of a list may be sorted beforehand.

`merging_eq_building` says what follows for definitions that come in
parts: however the parts are grouped, and whether they are merged all at
once or one after the other, the outcome is the store of all parts in
their order. A table of stores made from one another therefore holds
nothing but stores of lists (`StoreTable.toList_run`).
-/

namespace ConstGraph

variable {σ ν : Type} [Segment σ]

namespace Definition

/-- Neither path nor kind tells two definitions apart: each may stand
before the other. -/
def ties (a b : Definition σ ν) : Bool := a.precedes b && b.precedes a

theorem ties_iff {a b : Definition σ ν} : a.ties b ↔ a.precedes b ∧ b.precedes a := by
  rw [ties, Bool.and_eq_true]

theorem ties_self (a : Definition σ ν) : a.ties a := by
  have htotal := precedes_total a a
  rw [Bool.or_self] at htotal
  exact ties_iff.mpr ⟨htotal, htotal⟩

/-- Two definitions that tie with a third may stand in any order. -/
theorem precedes_of_ties {a b c : Definition σ ν} (hb : a.ties b) (hc : a.ties c) :
    b.precedes c :=
  precedes_trans b a c (ties_iff.mp hb).2 (ties_iff.mp hc).1

/-- The first of a list in order stands before every member. -/
theorem precedes_of_mem_cons {a b : Definition σ ν} {ds : List (Definition σ ν)}
    (h : (a :: ds).Pairwise (precedes · ·)) (hb : b ∈ a :: ds) : a.precedes b := by
  rcases List.mem_cons.mp hb with rfl | hmem
  · exact (ties_iff.mp b.ties_self).1
  · exact List.rel_of_pairwise_cons h hmem

theorem mem_iff_of_filter_ties {xs ys : List (Definition σ ν)}
    (h : ∀ a : Definition σ ν, xs.filter a.ties = ys.filter a.ties) (a : Definition σ ν) :
    a ∈ xs ↔ a ∈ ys := by
  have hclass : a ∈ xs.filter a.ties ↔ a ∈ ys.filter a.ties := by rw [h a]
  simpa only [List.mem_filter, ties_self, and_true] using hclass

/-- **A list in order is determined by its ties**: by what it holds of each
class of definitions that tie, in which order. The first members of two
such lists stand before each other, so they tie, and then they are the
first of their class in either list. -/
theorem eq_of_filter_ties {xs ys : List (Definition σ ν)} (hxs : xs.Pairwise (precedes · ·))
    (hys : ys.Pairwise (precedes · ·))
    (h : ∀ a : Definition σ ν, xs.filter a.ties = ys.filter a.ties) : xs = ys := by
  have hmem := mem_iff_of_filter_ties h
  induction xs generalizing ys with
  | nil =>
    refine (List.eq_nil_iff_forall_not_mem.mpr fun a ha => ?_).symm
    exact List.not_mem_nil ((hmem a).mpr ha)
  | cons x xs ih =>
    obtain ⟨y, rest, rfl⟩ : ∃ y rest, ys = y :: rest :=
      List.exists_cons_of_ne_nil (List.ne_nil_of_mem ((hmem x).mp List.mem_cons_self))
    have hxy : x.precedes y := precedes_of_mem_cons hxs ((hmem y).mpr List.mem_cons_self)
    have hyx : y.precedes x := precedes_of_mem_cons hys ((hmem x).mp List.mem_cons_self)
    have hfirst := h x
    rw [List.filter_cons_of_pos x.ties_self,
      List.filter_cons_of_pos (ties_iff.mpr ⟨hxy, hyx⟩)] at hfirst
    obtain rfl : x = y := (List.cons.inj hfirst).1
    have hrest : ∀ a : Definition σ ν, xs.filter a.ties = rest.filter a.ties := by
      intro a
      have hclass := h a
      rw [List.filter_cons, List.filter_cons] at hclass
      split at hclass
      · exact (List.cons.inj hclass).2
      · exact hclass
    have htail : xs = rest := ih hxs.tail hys.tail hrest (mem_iff_of_filter_ties hrest)
    rw [htail]

end Definition

namespace DefinitionStore

theorem ext_toList {s t : DefinitionStore σ ν} (h : s.toList = t.toList) : s = t := by
  obtain ⟨⟨xs⟩, hxs⟩ := s
  obtain ⟨⟨ys⟩, hys⟩ := t
  obtain rfl : xs = ys := h
  rfl

/-- Sorting keeps the order of definitions that tie. -/
theorem filter_ties_toList_ofList (ds : List (Definition σ ν)) (a : Definition σ ν) :
    (ofList ds).toList.filter a.ties = ds.filter a.ties :=
  filter_toList_ofList ds a.ties fun _ _ => Definition.precedes_of_ties

/-- **Lists that agree class by class make one store.** -/
theorem ofList_congr {ds es : List (Definition σ ν)}
    (h : ∀ a : Definition σ ν, ds.filter a.ties = es.filter a.ties) : ofList ds = ofList es := by
  refine ext_toList (Definition.eq_of_filter_ties (ofList ds).sorted (ofList es).sorted ?_)
  intro a
  rw [filter_ties_toList_ofList, filter_ties_toList_ofList, h]

/-! ## Sorting beforehand -/

/-- A store with more definitions is the store of all of them. -/
theorem merge_ofList (ds es : List (Definition σ ν)) :
    (ofList ds).merge es = ofList (ds ++ es) := by
  refine ofList_congr fun a => ?_
  rw [List.filter_append, List.filter_append, filter_ties_toList_ofList]

/-- Definitions may be added as a store of their own. -/
theorem merge_toList_ofList (s : DefinitionStore σ ν) (ds : List (Definition σ ν)) :
    s.merge (ofList ds).toList = s.merge ds := by
  refine ofList_congr fun a => ?_
  rw [List.filter_append, List.filter_append, filter_ties_toList_ofList]

/-- **Stores merged are one store** of all their definitions. -/
theorem merged_map_ofList (parts : List (List (Definition σ ν))) :
    merged (parts.map ofList) = ofList parts.flatten := by
  refine ofList_congr fun a => ?_
  rw [List.flatMap_map, List.filter_flatMap, List.filter_flatten, List.flatten_eq_flatMap,
    List.flatMap_map]
  simp only [filter_ties_toList_ofList, id]

/-- Definitions added part by part are added all at once. -/
theorem foldl_merge (ds : List (Definition σ ν)) (parts : List (List (Definition σ ν))) :
    parts.foldl merge (ofList ds) = ofList (ds ++ parts.flatten) := by
  induction parts generalizing ds with
  | nil => rw [List.foldl_nil, List.flatten_nil, List.append_nil]
  | cons part parts ih =>
    rw [List.foldl_cons, merge_ofList, ih, List.flatten_cons, List.append_assoc]

/-- So are stores. -/
theorem foldl_merge_toList (s : DefinitionStore σ ν) (parts : List (List (Definition σ ν))) :
    (parts.map ofList).foldl (fun s t => s.merge t.toList) s = parts.foldl merge s := by
  simp only [List.foldl_map, merge_toList_ofList]

end DefinitionStore

/-! ## Groups of groups -/

/-- Parts of a project, merged in groups and groups of groups. -/
inductive StoreGroup (σ : Type := String) (ν : Type := Int) where
  /-- The definitions of one part. -/
  | part (ds : List (Definition σ ν))
  /-- Some groups taken together. -/
  | group (members : List (StoreGroup σ ν))

namespace StoreGroup

mutual

/-- The store of a group: that of its definitions, or the merged stores of
its members. -/
def store : StoreGroup σ ν → DefinitionStore σ ν
  | part ds => .ofList ds
  | group members => .merged (stores members)

/-- The stores of some groups. -/
def stores : List (StoreGroup σ ν) → List (DefinitionStore σ ν)
  | [] => []
  | g :: gs => g.store :: stores gs

end

mutual

/-- The parts of a group, in their order. -/
def parts : StoreGroup σ ν → List (List (Definition σ ν))
  | part ds => [ds]
  | group members => partsAll members

/-- The parts of some groups. -/
def partsAll : List (StoreGroup σ ν) → List (List (Definition σ ν))
  | [] => []
  | g :: gs => g.parts ++ partsAll gs

end

/-- The definitions of a group, part by part. -/
def definitions (g : StoreGroup σ ν) : List (Definition σ ν) := g.parts.flatten

omit [Segment σ] in
theorem flatten_partsAll (gs : List (StoreGroup σ ν)) :
    (partsAll gs).flatten = (gs.map definitions).flatten := by
  induction gs with
  | nil => rfl
  | cons g gs ih =>
    rw [partsAll, List.flatten_append, ih]
    rfl

mutual

/-- **The store of a group** is that of its definitions, whatever the
groups inside it. -/
theorem store_eq (g : StoreGroup σ ν) : g.store = .ofList g.definitions := by
  cases g with
  | part ds =>
    change DefinitionStore.ofList ds = .ofList [ds].flatten
    rw [List.flatten_singleton]
  | group members =>
    change DefinitionStore.merged (stores members) = .ofList (partsAll members).flatten
    rw [stores_eq, DefinitionStore.merged_map_ofList, flatten_partsAll]

/-- And so for the members of a group, one by one. -/
theorem stores_eq (gs : List (StoreGroup σ ν)) :
    stores gs = (gs.map definitions).map .ofList := by
  cases gs with
  | nil => rfl
  | cons g gs =>
    rw [stores, store_eq, stores_eq]
    rfl

end

end StoreGroup

/-! ## Stores made one after the other -/

/-- The definitions of the store that a call makes, as they come, told from
those of the stores made before. -/
def StoreCall.listed (lists : List (List (Definition σ ν))) :
    StoreCall σ ν → List (Definition σ ν)
  | ofList ds => ds
  | merged places => (places.map fun place => lists.getD place []).flatten
  | merge place ds => lists.getD place [] ++ ds
  | mergeStore place other => lists.getD place [] ++ lists.getD other []

namespace StoreTable

/-- The definitions of each store after some calls, as they come. -/
def listings (lists : List (List (Definition σ ν))) (calls : List (StoreCall σ ν)) :
    List (List (Definition σ ν)) :=
  calls.foldl (fun lists c => lists ++ [c.listed lists]) lists

variable {t : StoreTable σ ν} {lists : List (List (Definition σ ν))}

/-- A call keeps the stores there are and adds one after them. -/
theorem toList_call (t : StoreTable σ ν) (c : StoreCall σ ν) :
    (t.call c).stores.toList = t.stores.toList ++ [t.made c] := by
  rw [call, add, Array.toList_push]

/-- **The stores there are stay as they were made**, whatever calls come
after. -/
theorem toList_isPrefix_run (t : StoreTable σ ν) (calls : List (StoreCall σ ν)) :
    t.stores.toList <+: (t.run calls).stores.toList := by
  induction calls generalizing t with
  | nil => exact List.prefix_rfl
  | cons c calls ih =>
    have hcall : t.stores.toList <+: (t.call c).stores.toList := by
      rw [toList_call]
      exact List.prefix_append _ _
    exact hcall.trans (ih (t.call c))

theorem store_eq (h : t.stores.toList = lists.map .ofList) (place : Nat) :
    t.store place = .ofList (lists.getD place []) := by
  rw [store, Array.getD_eq_getD_getElem?, ← Array.getElem?_toList, h, List.getElem?_map,
    List.getD_eq_getElem?_getD]
  cases lists[place]? <;> rfl

/-- **A call makes the store of the definitions it lists**, if the stores
made before are the stores of theirs. -/
theorem made_eq (h : t.stores.toList = lists.map .ofList) (c : StoreCall σ ν) :
    t.made c = .ofList (c.listed lists) := by
  cases c with
  | ofList ds => rfl
  | merged places =>
    have hstores : places.map t.store =
        (places.map fun place => lists.getD place []).map .ofList := by
      rw [List.map_map]
      exact List.map_congr_left fun place _ => store_eq h place
    rw [made, hstores, DefinitionStore.merged_map_ofList]
    rfl
  | merge place ds =>
    rw [made, store_eq h, DefinitionStore.merge_ofList]
    rfl
  | mergeStore place other =>
    rw [made, store_eq h, store_eq h, DefinitionStore.merge_toList_ofList,
      DefinitionStore.merge_ofList]
    rfl

/-- So do any calls one after the other. -/
theorem toList_run (h : t.stores.toList = lists.map .ofList) (calls : List (StoreCall σ ν)) :
    (t.run calls).stores.toList = (listings lists calls).map .ofList := by
  induction calls generalizing t lists with
  | nil => exact h
  | cons c calls ih =>
    have hcall : (t.call c).stores.toList = (lists ++ [c.listed lists]).map .ofList := by
      rw [toList_call, made_eq h, h, List.map_append, List.map_singleton]
    exact ih hcall

end StoreTable

namespace DefinitionStore

/-- **Merging stores is building one.** The stores of some parts merged at
once, in any groups of groups that keep their order, or added to a store
one after the other, as definitions or as stores: the outcome is the store
of all definitions as they come, those that tie in their order too. So each
of the stores that any calls make one after the other is the store of the
definitions it lists, and the stores there are stay as they were made. -/
theorem merging_eq_building (parts : List (List (Definition σ ν))) :
    merged (parts.map ofList) = ofList parts.flatten ∧
      (∀ g : StoreGroup σ ν, g.parts = parts → g.store = ofList parts.flatten) ∧
      (∀ first, parts.foldl merge (ofList first) = ofList (first ++ parts.flatten)) ∧
      (∀ first, (parts.map ofList).foldl (fun s t => merge s t.toList) (ofList first) =
        ofList (first ++ parts.flatten)) ∧
      (∀ calls : List (StoreCall σ ν), (StoreTable.run {} calls).stores.toList =
        (StoreTable.listings [] calls).map ofList) ∧
      ∀ (t : StoreTable σ ν) (calls : List (StoreCall σ ν)),
        t.stores.toList <+: (t.run calls).stores.toList := by
  refine ⟨merged_map_ofList parts, ?_, ?_, ?_, StoreTable.toList_run rfl,
    StoreTable.toList_isPrefix_run⟩
  · rintro g rfl
    exact g.store_eq
  · intro first
    exact foldl_merge first parts
  · intro first
    rw [foldl_merge_toList, foldl_merge]

/-- A class of one line. -/
def oneLine (name file : String) (line : Int) : Definition := ⟨[name], .ofClass, file, line, 1⟩

/-- Three files that open the class `B`, the second of them `A` too. The
first two are a group of their own. -/
def reopenedFiles : StoreGroup :=
  .group [.group [.part [oneLine "B" "a.rb" 1], .part [oneLine "B" "b.rb" 1, oneLine "A" "b.rb" 2]],
    .part [oneLine "B" "c.rb" 1]]

/-- What is found of `B` comes in the order of the files. -/
theorem reopened_class_merged :
    reopenedFiles.parts = [[oneLine "B" "a.rb" 1], [oneLine "B" "b.rb" 1, oneLine "A" "b.rb" 2],
        [oneLine "B" "c.rb" 1]] ∧
      reopenedFiles.store = ofList [oneLine "B" "a.rb" 1, oneLine "B" "b.rb" 1,
        oneLine "A" "b.rb" 2, oneLine "B" "c.rb" 1] ∧
      reopenedFiles.store.findAll ["B"] =
        [oneLine "B" "a.rb" 1, oneLine "B" "b.rb" 1, oneLine "B" "c.rb" 1] := by
  have hstore := (merging_eq_building reopenedFiles.parts).2.1 reopenedFiles rfl
  refine ⟨rfl, hstore, ?_⟩
  rw [hstore, findAll_ofList]
  rfl

end DefinitionStore

end ConstGraph
