import ConstGraph.Proofs.ConstantsAndCalls

/-!
# Chains of constants

The path of a constant is found in one pass along its qualifiers, which
keeps the names met so far. `SyntaxTree.pathIn` says the same by recursion
on the qualifiers.

`ConcreteNode.Chain` is what `A::B::C` and `::A::B` are in a concrete tree.
A chain is converted link by link, from the outermost in, and its path is
what the links spell from left to right. The conversion goes one level
down for each link, so a chain of more links than there are levels is
refused.
-/

namespace ConstGraph

/-! ## The path, recursively -/

namespace SyntaxTree

/-- The path a tree names in the scope `base`. A constant adds its last
child, if that is a name, to the path of its first; the bare `::` is the
root whatever the scope; anything else names the scope. -/
def pathIn (base : ConstPath) : SyntaxTree → ConstPath
  | node .constant (qualifier :: rest) _ _ =>
    qualifier.pathIn base ++ ((qualifier :: rest).getLast?.bind name?).toList
  | node .root _ _ _ => [Segment.rootMarker]
  | _ => base

/-- **The path found in one pass is the recursive one**, of any tree. -/
theorem constPath_eq_pathIn (t : SyntaxTree) (base : ConstPath) : t.constPath base = t.pathIn base := by
  induction t using pathIn.induct with
  | case1 qualifier rest span tag ih => rw [constPath_cons, ih, pathIn]
  | case2 children span tag => simp [constPath, constChain, isRoot, kind?, pathIn]
  | case3 t hconstant hroot =>
    cases t with
    | node kind children span tag =>
      cases kind with
      | constant =>
        cases children with
        | nil => simp [constPath, constChain, isRoot, kind?, pathIn]
        | cons qualifier rest => exact (hconstant qualifier rest span tag rfl).elim
      | root => exact (hroot children span tag rfl).elim
      | _ => simp [constPath, constChain, isRoot, kind?, pathIn]
    | _ => simp [constPath, constChain, isRoot, kind?, pathIn]

end SyntaxTree

/-! ## Chains in a concrete tree -/

namespace ConcreteNode

/-- A chain of constants: a bare constant, or a constant behind `::`, where
a chain or nothing at all stands before the `::`. It is given with its
links and the text of the constant in each, from left to right, and with
whether the leftmost link has nothing before its `::`. -/
inductive Chain : ConcreteNode → Bool → List (ConcreteNode × String) → Prop where
  /-- A bare constant is its only link. -/
  | bare {n : ConcreteNode} : n.construct = .constant → Chain n false [(n, n.text)]
  /-- A constant from the root. -/
  | rooted {n c : ConcreteNode} : n.construct = .qualified → n.child? "name" = some c →
      c.construct = .constant → n.child? "scope" = none → Chain n true [(n, c.text)]
  /-- A constant inside what a chain names. -/
  | inside {n c q : ConcreteNode} {rooted : Bool} {links : List (ConcreteNode × String)} :
      n.construct = .qualified → n.child? "name" = some c → c.construct = .constant →
      n.child? "scope" = some q → Chain q rooted links → Chain n rooted (links ++ [(n, c.text)])

/-- The path of a chain in the scope `base`: its constants, behind the root
if nothing stands before the leftmost `::`, else behind the scope. -/
def chainPath (rooted : Bool) (links : List (ConcreteNode × String)) (base : ConstPath) :
    ConstPath :=
  (if rooted then [Segment.rootMarker] else base) ++ links.map Prod.snd

/-- No link ends before it starts. -/
def LinksInOrder (links : List (ConcreteNode × String)) : Prop :=
  ∀ l ∈ links, l.1.startRow ≤ l.1.endRow

theorem linksInOrder_singleton {n : ConcreteNode} {x : String} :
    LinksInOrder [(n, x)] ↔ n.startRow ≤ n.endRow := by
  simp [LinksInOrder]

theorem linksInOrder_concat {links : List (ConcreteNode × String)} {l : ConcreteNode × String} :
    LinksInOrder (links ++ [l]) ↔ LinksInOrder links ∧ l.1.startRow ≤ l.1.endRow := by
  simp [LinksInOrder, or_imp, forall_and]

theorem lines_eq (n : ConcreteNode) :
    (∃ span, n.lines = .ok span ∧ n.startRow ≤ n.endRow) ∨
      ∃ e, n.lines = .error (.span e) ∧ ¬ n.startRow ≤ n.endRow := by
  unfold lines LineSpan.ofLines line
  by_cases h : n.startRow ≤ n.endRow
  · rw [dif_pos (by omega)]
    exact Or.inl ⟨_, rfl, h⟩
  · rw [dif_neg (by omega)]
    exact Or.inr ⟨_, rfl, h⟩

end ConcreteNode

/-! ## Converting a chain -/

namespace Conversion

theorem build_apply (n : ConcreteNode) (kind : NodeKind) (children : List SyntaxTree)
    (s : LocalScope) :
    build n kind children s = n.lines.map fun span => (.node kind children span "", s) := by
  unfold build
  rw [Outline.bind_apply, Outline.span_apply]
  cases n.lines <;> rfl

section

variable {n c q : ConcreteNode} {depth : Nat} {s : LocalScope}

theorem convert_bare (hn : n.construct = .constant) :
    convert (depth + 1) n s =
      n.lines.map fun span => (.node .constant [.absent, .name n.text] span "", s) := by
  simp only [convert, convertNode, hn, build_apply]

theorem convert_rooted (hn : n.construct = .qualified) (hname : n.child? "name" = some c)
    (hc : c.construct = .constant) (hscope : n.child? "scope" = none) :
    convert (depth + 1) n s = n.lines.map fun span =>
      (.node .constant [.node .root [] span "", .name c.text] span "", s) := by
  simp only [convert, convertNode, hn, qualified, hname, hc, qualifier, hscope]
  rw [Outline.bind_apply, build_apply]
  cases hlines : n.lines with
  | error e => rfl
  | ok span =>
    simp only [Except.map, Except.bind, build_apply, hlines]

theorem convert_inside (hn : n.construct = .qualified) (hname : n.child? "name" = some c)
    (hc : c.construct = .constant) (hscope : n.child? "scope" = some q) :
    convert (depth + 1) n s = (convert depth q s).bind fun r => n.lines.map fun span =>
      (.node .constant [r.1, .name c.text] span "", r.2) := by
  simp only [convert, convertNode, hn, qualified, hname, hc, qualifier, hscope]
  rw [Outline.bind_apply]
  simp only [build_apply]

end

end Conversion

namespace ConcreteNode

open Conversion (convert)

variable {n : ConcreteNode} {rooted : Bool} {links : List (ConcreteNode × String)}

/-- **A chain of more links than there are levels is refused.** -/
theorem Chain.convert_tooDeep (h : n.Chain rooted links) {depth : Nat}
    (hdepth : depth < links.length) (s : LocalScope) : convert depth n s = .error .tooDeep := by
  induction h generalizing depth with
  | bare hn =>
    obtain rfl : depth = 0 := by simpa using hdepth
    rfl
  | rooted hn hname hc hscope =>
    obtain rfl : depth = 0 := by simpa using hdepth
    rfl
  | @inside n c q rooted links hn hname hc hscope hq ih =>
    cases depth with
    | zero => rfl
    | succ depth =>
      have hshort : depth < links.length := by simpa using hdepth
      rw [Conversion.convert_inside hn hname hc hscope, ih hshort]
      rfl

/-- What becomes of a chain if there is a level for each link: a constant
that names its path, or a refusal if a link is reversed. -/
theorem Chain.convert_of_le (h : n.Chain rooted links) {depth : Nat}
    (hdepth : links.length ≤ depth) (s : LocalScope) :
    (LinksInOrder links ∧ ∃ t, convert depth n s = .ok (t, s) ∧
        ∀ base, t.constPath base = chainPath rooted links base) ∨
      (¬ LinksInOrder links ∧ ∃ e, convert depth n s = .error (.span e)) := by
  induction h generalizing depth with
  | @bare n hn =>
    obtain ⟨depth, rfl⟩ := Nat.exists_eq_add_of_le' hdepth
    rw [linksInOrder_singleton, List.length_singleton, Conversion.convert_bare hn]
    obtain ⟨span, hspan, hrow⟩ | ⟨e, he, hrow⟩ := n.lines_eq
    · refine Or.inl ⟨hrow, _, by rw [hspan]; rfl, fun base => ?_⟩
      rw [SyntaxTree.constPath_constant, SyntaxTree.constPath_eq_pathIn]
      rfl
    · exact Or.inr ⟨hrow, e, by rw [he]; rfl⟩
  | @rooted n c hn hname hc hscope =>
    obtain ⟨depth, rfl⟩ := Nat.exists_eq_add_of_le' hdepth
    rw [linksInOrder_singleton, List.length_singleton, Conversion.convert_rooted hn hname hc hscope]
    obtain ⟨span, hspan, hrow⟩ | ⟨e, he, hrow⟩ := n.lines_eq
    · refine Or.inl ⟨hrow, _, by rw [hspan]; rfl, fun base => ?_⟩
      rw [SyntaxTree.constPath_constant, SyntaxTree.constPath_eq_pathIn]
      rfl
    · exact Or.inr ⟨hrow, e, by rw [he]; rfl⟩
  | @inside n c q rooted links hn hname hc hscope hq ih =>
    rw [List.length_append, List.length_singleton] at hdepth
    obtain ⟨depth, rfl⟩ : ∃ d, depth = d + 1 := Nat.exists_eq_succ_of_ne_zero (by omega)
    rw [linksInOrder_concat, Conversion.convert_inside hn hname hc hscope]
    obtain ⟨hlinks, t, ht, hpath⟩ | ⟨hlinks, e, he⟩ := ih (Nat.le_of_succ_le_succ hdepth)
    · rw [ht]
      obtain ⟨span, hspan, hrow⟩ | ⟨e, he, hrow⟩ := n.lines_eq
      · refine Or.inl ⟨⟨hlinks, hrow⟩, _, by rw [hspan]; rfl, fun base => ?_⟩
        rw [SyntaxTree.constPath_constant, hpath, chainPath, chainPath, List.map_append,
          List.append_assoc]
        rfl
      · exact Or.inr ⟨fun hboth => hrow hboth.2, e, by rw [he]; rfl⟩
    · exact Or.inr ⟨fun hboth => hlinks hboth.1, e, by rw [he]; rfl⟩

/-- The three outcomes of a chain. -/
theorem Chain.convert_cases (h : n.Chain rooted links) (depth : Nat) (s : LocalScope) :
    (depth < links.length ∧ convert depth n s = .error .tooDeep) ∨
      (links.length ≤ depth ∧ LinksInOrder links ∧ ∃ t, convert depth n s = .ok (t, s) ∧
        ∀ base, t.constPath base = chainPath rooted links base) ∨
      (links.length ≤ depth ∧ ¬ LinksInOrder links ∧
        ∃ e, convert depth n s = .error (.span e)) := by
  rcases Nat.lt_or_ge depth links.length with hdeep | hdepth
  · exact Or.inl ⟨hdeep, h.convert_tooDeep hdeep s⟩
  · exact Or.inr ((h.convert_of_le hdepth s).imp (And.intro hdepth) (And.intro hdepth))

/-- **A chain of constants names what it spells.** The path of any tree is
the recursive one. A chain is converted exactly if there is a level for
each of its links and none of them is reversed; the constant it becomes
names the constants of the chain from left to right, behind the root if
nothing stands before the leftmost `::` and behind the scope it is read in
otherwise, and no local is declared. A chain of more links than levels is
refused for that. So it is with the levels that are set. -/
theorem chain_names_spelling :
    (∀ (t : SyntaxTree) base, t.constPath base = t.pathIn base) ∧
      ∀ (n : ConcreteNode) rooted links, n.Chain rooted links →
        (∀ depth locals,
          ((∃ t, convert depth n locals = .ok (t, locals) ∧
              ∀ base, t.constPath base = chainPath rooted links base) ↔
            links.length ≤ depth ∧ LinksInOrder links) ∧
          (convert depth n locals = .error .tooDeep ↔ depth < links.length)) ∧
        ((∃ t, n.toSyntax = .ok t ∧ ∀ base, t.constPath base = chainPath rooted links base) ↔
          links.length ≤ Conversion.nestingLimit ∧ LinksInOrder links) ∧
        (n.toSyntax = .error .tooDeep ↔ Conversion.nestingLimit < links.length) := by
  refine ⟨SyntaxTree.constPath_eq_pathIn, fun n rooted links h => ⟨fun depth locals => ?_, ?_⟩⟩
  · obtain ⟨hdeep, he⟩ | ⟨hdepth, hlinks, t, ht, hpath⟩ | ⟨hdepth, hlinks, e, he⟩ :=
      h.convert_cases depth locals
    · simp [he, hdeep, Nat.not_le.2 hdeep]
    · simp [ht, hdepth, hlinks, hpath]
    · simp [he, hdepth, hlinks]
  · obtain ⟨hdeep, he⟩ | ⟨hdepth, hlinks, t, ht, hpath⟩ | ⟨hdepth, hlinks, e, he⟩ :=
      h.convert_cases Conversion.nestingLimit .empty
    · simp [toSyntax, Except.map, he, hdeep, Nat.not_le.2 hdeep]
    · simp [toSyntax, Except.map, ht, hdepth, hlinks, hpath]
    · simp [toSyntax, Except.map, he, hdepth, hlinks]

/-- The constant `A` behind a `::`. -/
def nameA : ConcreteNode := { type := "constant", field := some "name", bytes := [0x41] }

/-- The chain `::A`. -/
def rootA : ConcreteNode :=
  { type := "scope_resolution", field := some "scope", children := [nameA] }

/-- The chain `::A::A`. -/
def rootAA : ConcreteNode := { type := "scope_resolution", children := [rootA, nameA] }

/-- `::A::A` names the path from the root, in any scope. -/
theorem rootAA_names_spelling :
    rootAA.Chain true [(rootA, "A"), (rootAA, "A")] ∧
      ∃ t, rootAA.toSyntax = .ok t ∧ ∀ base, t.constPath base = ["", "A", "A"] := by
  have htext : nameA.text = "A" := by decide
  have hchain : rootAA.Chain true [(rootA, "A"), (rootAA, "A")] := by
    have hroot : rootA.Chain true [(rootA, nameA.text)] := .rooted rfl rfl rfl rfl
    have hboth := Chain.inside (n := rootAA) (c := nameA) rfl rfl rfl rfl hroot
    rwa [htext] at hboth
  have hlinks : LinksInOrder [(rootA, "A"), (rootAA, "A")] := by
    simp [LinksInOrder, rootA, rootAA]
  exact ⟨hchain, (chain_names_spelling.2 _ _ _ hchain).2.1.2 ⟨by decide, hlinks⟩⟩

/-- The chain of `A` in `A` and so on, with a number of `::` in it. -/
def stacked : Nat → ConcreteNode
  | 0 => { type := "constant", field := some "scope", bytes := [0x41] }
  | k + 1 =>
    { type := "scope_resolution", field := some "scope", children := [stacked k, nameA] }

theorem field_stacked (k : Nat) : (stacked k).field = some "scope" := by
  cases k <;> rfl

theorem chain_stacked (k : Nat) :
    (stacked k).Chain false ((List.range (k + 1)).map fun i => (stacked i, "A")) := by
  have htext : nameA.text = "A" := by decide
  induction k with
  | zero => exact .bare rfl
  | succ k ih =>
    have hname : (stacked (k + 1)).child? "name" = some nameA := by
      simp [stacked, child?, fills, field_stacked, nameA]
    have hscope : (stacked (k + 1)).child? "scope" = some (stacked k) := by
      simp [stacked, child?, fills, field_stacked]
    have hboth := Chain.inside rfl hname rfl hscope ih
    rw [htext] at hboth
    rwa [List.range_succ, List.map_append]

/-- A chain with three thousand `::` in it names nothing: it is refused for
its depth. -/
theorem stacked_refused :
    (stacked 3000).Chain false ((List.range 3001).map fun i => (stacked i, "A")) ∧
      (stacked 3000).toSyntax = .error .tooDeep := by
  refine ⟨chain_stacked 3000, ?_⟩
  have hdeep : Conversion.nestingLimit < ((List.range 3001).map fun i => (stacked i, "A")).length := by
    rw [List.length_map, List.length_range]
    decide
  rw [toSyntax, (chain_stacked 3000).convert_tooDeep hdeep]
  rfl

end ConcreteNode

end ConstGraph
