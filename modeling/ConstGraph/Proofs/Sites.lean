import ConstGraph.Walk.Run
import Mathlib.Data.List.Nodup

/-!
# The sites of a syntax tree

A site is a node of a tree together with the way down to it: the nodes
around it, the innermost first, and for each of these the siblings that
stand before it. `SyntaxTree.sites` lists the sites a walk comes to, in
pre-order. It goes on from a node to all its children, with two
exceptions: nothing below a constant is a site, and neither is the name of
a class or module.

No site is listed twice (`nodup_sites`), and what stands above a site is
itself a site (`mem_sites_of_suffix`), so "the nearest node around it such
that" (`nearest?`) is a question about sites alone.
-/

namespace ConstGraph

/-- A node on the way down a tree. -/
structure Step where
  /-- The kind of the node. -/
  kind : NodeKind
  /-- The children of the node. -/
  children : List SyntaxTree
  /-- The lines of the node. -/
  span : LineSpan
  /-- The grammar's own word for the node. -/
  tag : String
  /-- The siblings before the node that a walk comes to first. -/
  elders : List SyntaxTree

/-- The node as a tree. -/
def Step.tree (s : Step) : SyntaxTree := .node s.kind s.children s.span s.tag

/-- A node of a tree with the way down to it. -/
structure Site where
  /-- The node itself. -/
  here : Step
  /-- The nodes around it, the innermost first. -/
  above : List Step

/-- The children a walk goes on to: none of a constant, all but the name
of a class or module, and all of any other node. -/
def NodeKind.entered (kind : NodeKind) (children : List SyntaxTree) : List SyntaxTree :=
  match kind with
  | .constant => []
  | .moduleDef | .classDef => children.tail
  | _ => children

theorem NodeKind.entered_sublist (kind : NodeKind) (children : List SyntaxTree) :
    (kind.entered children).Sublist children := by
  cases kind with
  | moduleDef => exact List.tail_sublist _
  | classDef => exact List.tail_sublist _
  | constant => exact List.nil_sublist _
  | _ => exact List.Sublist.refl _

namespace SyntaxTree

/-! ## Descending a tree -/

theorem size_le_sizes {t : SyntaxTree} {ts : List SyntaxTree} (h : t ∈ ts) :
    t.size ≤ sizes ts := by
  have := sizes_le_of_sublist (List.singleton_sublist.2 h)
  simpa [sizes] using this

/-- What holds of a node once it holds of all its children holds of every
tree. -/
@[elab_as_elim]
theorem induction_children {motive : SyntaxTree → Prop} (absent : motive .absent)
    (name : ∀ text, motive (.name text))
    (node : ∀ kind children span tag, (∀ c ∈ children, motive c) →
      motive (.node kind children span tag))
    (t : SyntaxTree) : motive t :=
  match t with
  | .absent => absent
  | .name text => name text
  | .node kind children span tag =>
    node kind children span tag fun c hc =>
      have : c.size < (SyntaxTree.node kind children span tag).size := by
        have := size_le_sizes hc
        rw [size]
        omega
      induction_children absent name node c
termination_by t.size

theorem sizes_entered_lt (kind : NodeKind) (children : List SyntaxTree) (span : LineSpan)
    (tag : String) : sizes (kind.entered children) < (node kind children span tag).size := by
  have := sizes_le_of_sublist (kind.entered_sublist children)
  rw [size]
  omega

mutual

/-- The sites of a tree that stands below `above`, with `elders` before
it. -/
def sitesFrom (above : List Step) (elders : List SyntaxTree) (t : SyntaxTree) : List Site :=
  match t with
  | .absent => []
  | .name _ => []
  | .node kind children span tag =>
    have := sizes_entered_lt kind children span tag
    ⟨⟨kind, children, span, tag, elders⟩, above⟩ ::
      sitesAmong (⟨kind, children, span, tag, elders⟩ :: above) [] (kind.entered children)
termination_by (t.size, 0)

/-- The sites of siblings that stand below `above`, with `elders` before
the first of them. -/
def sitesAmong (above : List Step) (elders ts : List SyntaxTree) : List Site :=
  match ts with
  | [] => []
  | t :: rest => t.sitesFrom above elders ++ sitesAmong above (elders ++ [t]) rest
termination_by (sizes ts, 1)
decreasing_by
  · simp only [sizes, Prod.lex_def]
    omega
  · have := t.size_pos
    simp only [sizes, Prod.lex_def]
    omega

end

/-- The sites a walk comes to, in pre-order. -/
def sites (t : SyntaxTree) : List Site := t.sitesFrom [] []

variable {above : List Step} {elders ts : List SyntaxTree} {t : SyntaxTree} {p : Site}
  {kind : NodeKind} {children : List SyntaxTree} {span : LineSpan} {tag : String}

@[simp] theorem sitesFrom_absent : sitesFrom above elders absent = [] := by rw [sitesFrom]

@[simp] theorem sitesFrom_name {text : String} : sitesFrom above elders (name text) = [] := by
  rw [sitesFrom]

theorem sitesFrom_node :
    (node kind children span tag).sitesFrom above elders =
      ⟨⟨kind, children, span, tag, elders⟩, above⟩ ::
        sitesAmong (⟨kind, children, span, tag, elders⟩ :: above) [] (kind.entered children) := by
  rw [sitesFrom]

theorem sitesFrom_of_not_isNode (h : t.isNode = false) : t.sitesFrom above elders = [] := by
  cases t with
  | node kind children span tag => cases h
  | _ => simp

@[simp] theorem sitesAmong_nil : sitesAmong above elders [] = [] := by rw [sitesAmong]

theorem sitesAmong_cons :
    sitesAmong above elders (t :: ts) =
      t.sitesFrom above elders ++ sitesAmong above (elders ++ [t]) ts := by rw [sitesAmong]

/-- A site among siblings is one of some sibling, in its place. -/
theorem mem_sitesAmong :
    p ∈ sitesAmong above elders ts ↔
      ∃ front t back, ts = front ++ t :: back ∧ p ∈ t.sitesFrom above (elders ++ front) := by
  induction ts generalizing elders with
  | nil => simp
  | cons u ts ih =>
    rw [sitesAmong_cons, List.mem_append, ih]
    constructor
    · rintro (hp | ⟨front, t, back, rfl, hp⟩)
      · exact ⟨[], u, ts, rfl, by simpa using hp⟩
      · exact ⟨u :: front, t, back, rfl, by simpa using hp⟩
    · rintro ⟨front, t, back, hts, hp⟩
      cases front with
      | nil =>
        obtain ⟨rfl, rfl⟩ := List.cons.inj hts
        exact Or.inl (by simpa using hp)
      | cons v front =>
        obtain ⟨rfl, rfl⟩ := List.cons.inj hts
        exact Or.inr ⟨front, t, back, rfl, by simpa using hp⟩

/-- A site of a node is the node itself or lies below one of the children
the walk goes on to. -/
theorem mem_sitesFrom_node :
    p ∈ (node kind children span tag).sitesFrom above elders ↔
      p = ⟨⟨kind, children, span, tag, elders⟩, above⟩ ∨
        ∃ front t back, kind.entered children = front ++ t :: back ∧
          p ∈ t.sitesFrom (⟨kind, children, span, tag, elders⟩ :: above) front := by
  rw [sitesFrom_node, List.mem_cons, mem_sitesAmong]
  rfl

/-! ## What stands above a site -/

/-- Below a tree every site has the place of the tree on its way down. -/
theorem exists_way (hp : p ∈ t.sitesFrom above elders) :
    ∃ way s, p.here :: p.above = way ++ s :: above ∧ s.elders = elders := by
  induction t using induction_children generalizing above elders with
  | absent => simp at hp
  | name text => simp at hp
  | node kind children span tag ih =>
    obtain rfl | ⟨front, c, back, hc, hp⟩ := mem_sitesFrom_node.1 hp
    · exact ⟨[], _, rfl, rfl⟩
    · have hmem : c ∈ children := (kind.entered_sublist children).subset (by simp [hc])
      obtain ⟨way, s, hway, -⟩ := ih c hmem hp
      exact ⟨way ++ [s], ⟨kind, children, span, tag, elders⟩, by simp [hway], rfl⟩

/-- **What stands above a site is a site**, or stands above the whole tree
already. -/
theorem mem_sitesFrom_of_suffix {s : Step} {rest : List Step}
    (hp : p ∈ t.sitesFrom above elders) (hs : s :: rest <:+ p.above) :
    ⟨s, rest⟩ ∈ t.sitesFrom above elders ∨ s :: rest <:+ above := by
  induction t using induction_children generalizing above elders with
  | absent => simp at hp
  | name text => simp at hp
  | node kind children span tag ih =>
    obtain rfl | ⟨front, c, back, hc, hp⟩ := mem_sitesFrom_node.1 hp
    · exact Or.inr hs
    · have hmem : c ∈ children := (kind.entered_sublist children).subset (by simp [hc])
      -- not below the child, the suffix starts at this node or above it
      rcases ih c hmem hp with hsite | hsuffix
      · exact Or.inl (mem_sitesFrom_node.2 (Or.inr ⟨front, c, back, hc, hsite⟩))
      · rcases List.suffix_cons_iff.1 hsuffix with heq | hsuffix
        · obtain ⟨rfl, rfl⟩ := List.cons.inj heq
          exact Or.inl (mem_sitesFrom_node.2 (Or.inl rfl))
        · exact Or.inr hsuffix

theorem mem_sites_of_suffix {s : Step} {rest : List Step} (hp : p ∈ t.sites)
    (hs : s :: rest <:+ p.above) : ⟨s, rest⟩ ∈ t.sites := by
  refine (mem_sitesFrom_of_suffix hp hs).resolve_right fun h => ?_
  simp at h

/-! ## No site is listed twice -/

/-- Sites of different siblings differ: the ways down to them part at the
siblings, and these have different numbers of elders. -/
theorem disjoint_sitesAmong :
    List.Disjoint (t.sitesFrom above elders) (sitesAmong above (elders ++ [t]) ts) := by
  intro p hp hq
  obtain ⟨front, u, back, -, hq⟩ := mem_sitesAmong.1 hq
  obtain ⟨way, s, hway, hs⟩ := exists_way hp
  obtain ⟨way', s', hway', hs'⟩ := exists_way hq
  -- both ways end in `above`, so what stands right before that is the same
  have hsplit : way ++ s :: above = way' ++ s' :: above := hway.symm.trans hway'
  have hsame : s :: above = s' :: above := (List.append_inj' hsplit rfl).2
  rw [(List.cons.inj hsame).1, hs'] at hs
  have := congrArg List.length hs
  simp at this

theorem nodup_sitesAmong (h : ∀ t ∈ ts, ∀ above elders, (t.sitesFrom above elders).Nodup) :
    (sitesAmong above elders ts).Nodup := by
  induction ts generalizing elders with
  | nil => simp
  | cons t ts ih =>
    rw [sitesAmong_cons, List.nodup_append]
    refine ⟨h t (by simp) _ _, ih fun u hu => h u (by simp [hu]), ?_⟩
    rintro p hp q hq rfl
    exact disjoint_sitesAmong hp hq

theorem nodup_sitesFrom : (t.sitesFrom above elders).Nodup := by
  induction t using induction_children generalizing above elders with
  | absent => simp
  | name text => simp
  | node kind children span tag ih =>
    rw [sitesFrom_node, List.nodup_cons]
    constructor
    · intro hp
      -- the way down to a site below the node is longer than the one to the node
      obtain ⟨front, c, back, -, hp⟩ := mem_sitesAmong.1 hp
      obtain ⟨way, s, hway, -⟩ := exists_way hp
      have hlength := congrArg List.length hway
      simp at hlength
      omega
    · exact nodup_sitesAmong fun c hc above elders =>
        ih c ((kind.entered_sublist children).subset hc)

/-- **No site is listed twice.** -/
theorem nodup_sites (t : SyntaxTree) : t.sites.Nodup := nodup_sitesFrom

end SyntaxTree

/-! ## The nearest node around a site -/

/-- The innermost of some nodes that passes a test, as a site. -/
def nearest? (test : Step → Bool) : List Step → Option Site
  | [] => none
  | s :: above => if test s then some ⟨s, above⟩ else nearest? test above

theorem suffix_of_nearest? {test : Step → Bool} {above : List Step} {q : Site}
    (h : nearest? test above = some q) : q.here :: q.above <:+ above ∧ test q.here := by
  induction above with
  | nil => cases h
  | cons s above ih =>
    rw [nearest?] at h
    split at h
    · next htest =>
      cases h
      exact ⟨List.suffix_refl _, htest⟩
    · obtain ⟨hsuffix, htest⟩ := ih h
      exact ⟨hsuffix.trans (List.suffix_cons _ _), htest⟩

end ConstGraph
