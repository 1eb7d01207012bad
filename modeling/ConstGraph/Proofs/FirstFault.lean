import ConstGraph.Analysis
import ConstGraph.Proofs.ConvertedTrees
import Mathlib.Order.Bounds.Basic

/-!
# The first fault of a tree

A node of a concrete tree is told by its address, the numbers of the
children on the way down to it, and pre-order is the order of addresses.
`places` lists the nodes with their addresses, and the traversal with a
stack comes to the same nodes (`map_snd_places`): to every node there is,
once, and in order.

So a tree is refused exactly if it has a faulty node, and the line that is
reported is that of the fault with the least address
(`checked_reports_first_fault`). Where the rows of the nodes are nested as
the nodes are (`Nested`) no row goes back in pre-order, and this is the
least line of any fault.
-/

namespace ConstGraph

namespace ConcreteNode

variable {root n m c : ConcreteNode} {a b : List Nat}

/-- The node at an address: the numbers of the children to go down to, one
after the other. -/
def at? : ConcreteNode → List Nat → Option ConcreteNode
  | n, [] => some n
  | n, i :: a => n.children[i]?.bind (at? · a)

/-! ## Nodes with their addresses -/

mutual

/-- The nodes of a tree in pre-order, each with its address. -/
def places : ConcreteNode → List (List Nat × ConcreteNode)
  | n@⟨_, _, _, _, _, _, _, children⟩ => ([], n) :: placesAmong 0 children

/-- The nodes of the children of a node, those from number `i` on. -/
def placesAmong (i : Nat) : List ConcreteNode → List (List Nat × ConcreteNode)
  | [] => []
  | c :: cs => c.places.map (Prod.map (i :: ·) id) ++ placesAmong (i + 1) cs

end

theorem places_eq (n : ConcreteNode) : n.places = ([], n) :: placesAmong 0 n.children := by
  cases n
  rw [places]

mutual

/-- **The traversal comes to the nodes in their places.** -/
theorem map_snd_places (n : ConcreteNode) : n.places.map Prod.snd = n.preorder := by
  match n with
  | ⟨type, field, named, missing, startRow, endRow, bytes, children⟩ =>
    have hbelow := map_snd_placesAmong 0 children
    rw [places, preorder_eq, List.map_cons, hbelow]

theorem map_snd_placesAmong (i : Nat) (cs : List ConcreteNode) :
    (placesAmong i cs).map Prod.snd = cs.flatMap preorder := by
  match cs with
  | [] => rfl
  | c :: cs =>
    have hfirst := map_snd_places c
    have hrest := map_snd_placesAmong (i + 1) cs
    rw [placesAmong, List.map_append, List.map_map, hrest, List.flatMap_cons, ← hfirst]
    rfl

end

theorem mem_placesAmong {i : Nat} {cs : List ConcreteNode} :
    (a, m) ∈ placesAmong i cs ↔
      ∃ j c b, cs[j]? = some c ∧ a = (i + j) :: b ∧ (b, m) ∈ c.places := by
  induction cs generalizing i with
  | nil => simp [placesAmong]
  | cons c cs ih =>
    rw [placesAmong, List.mem_append, ih]
    constructor
    · rintro (h | ⟨j, d, b, hd, rfl, hb⟩)
      · obtain ⟨⟨b, m⟩, hb, hab⟩ := List.mem_map.1 h
        cases hab
        exact ⟨0, c, b, rfl, rfl, hb⟩
      · refine ⟨j + 1, d, b, hd, ?_, hb⟩
        rw [Nat.add_right_comm, Nat.add_assoc]
    · rintro ⟨j, d, b, hd, rfl, hb⟩
      rcases Nat.eq_zero_or_pos j with rfl | hj
      · cases hd
        exact Or.inl (List.mem_map.2 ⟨(b, m), hb, rfl⟩)
      · obtain ⟨j, rfl⟩ := Nat.exists_eq_add_of_lt hj
        refine Or.inr ⟨j, d, b, by simpa using hd, ?_, hb⟩
        have : i + (0 + j + 1) = i + 1 + j := by omega
        rw [this]

/-- **Every node is listed with its address**, and nothing else is. -/
theorem mem_places : (a, m) ∈ n.places ↔ n.at? a = some m := by
  induction a generalizing n with
  | nil =>
    have hbelow : ([], m) ∉ placesAmong 0 n.children := by
      intro h
      obtain ⟨j, c, b, -, hb, -⟩ := mem_placesAmong.1 h
      cases hb
    rw [places_eq, List.mem_cons, or_iff_left hbelow, at?, Option.some_inj, Prod.mk.injEq]
    exact ⟨fun h => h.2.symm, fun h => ⟨rfl, h.symm⟩⟩
  | cons i a ih =>
    have hroot : (i :: a, m) ≠ ([], n) := by
      intro h
      cases h
    rw [places_eq, List.mem_cons, or_iff_right hroot, mem_placesAmong, at?, Option.bind_eq_some_iff]
    constructor
    · rintro ⟨j, c, b, hc, hab, hb⟩
      obtain ⟨rfl, rfl⟩ := List.cons_eq_cons.1 hab
      exact ⟨c, by simpa using hc, ih.1 hb⟩
    · rintro ⟨c, hc, hm⟩
      exact ⟨i, c, a, hc, by rw [Nat.zero_add], ih.2 hm⟩

mutual

/-- **Addresses come up in order**, so none comes up twice. -/
theorem pairwise_places (n : ConcreteNode) : n.places.Pairwise fun p q => p.1 < q.1 := by
  match n with
  | ⟨type, field, named, missing, startRow, endRow, bytes, children⟩ =>
    rw [places, List.pairwise_cons]
    refine ⟨?_, pairwise_placesAmong 0 children⟩
    rintro ⟨a, m⟩ ha
    obtain ⟨j, c, b, -, rfl, -⟩ := mem_placesAmong.1 ha
    exact List.nil_lt_cons _ b

theorem pairwise_placesAmong (i : Nat) (cs : List ConcreteNode) :
    (placesAmong i cs).Pairwise fun p q => p.1 < q.1 := by
  match cs with
  | [] => exact List.Pairwise.nil
  | c :: cs =>
    rw [placesAmong, List.pairwise_append, List.pairwise_map]
    refine ⟨(pairwise_places c).imp fun h => List.cons_lt_cons_iff.2 (Or.inr ⟨rfl, h⟩),
      pairwise_placesAmong (i + 1) cs, ?_⟩
    rintro ⟨a, m⟩ ha ⟨b, m'⟩ hb
    obtain ⟨⟨a, m⟩, -, hab⟩ := List.mem_map.1 ha
    cases hab
    obtain ⟨j, d, b, -, rfl, -⟩ := mem_placesAmong.1 hb
    exact List.cons_lt_cons_iff.2 (Or.inl (by omega))

end

/-! ## Faults -/

/-- A faulty node stands at an address: one the grammar failed at, or one
that was made up. -/
def FaultAt (root : ConcreteNode) (a : List Nat) (n : ConcreteNode) : Prop :=
  root.at? a = some n ∧ (n.type = "ERROR" ∨ n.missing = true)

/-- A faulty node stands at an address, and none stands before it. -/
def FirstFaultAt (root : ConcreteNode) (a : List Nat) (n : ConcreteNode) : Prop :=
  root.FaultAt a n ∧ ∀ b m, root.FaultAt b m → ¬ b < a

theorem isFaulty_iff : n.isFaulty = true ↔ n.type = "ERROR" ∨ n.missing = true := by
  rw [isFaulty, Bool.or_eq_true, beq_iff_eq]

theorem faultAt_iff : root.FaultAt a n ↔ (a, n) ∈ root.places ∧ n.isFaulty = true := by
  rw [FaultAt, mem_places, isFaulty_iff]

theorem firstFault?_eq_none_iff : root.firstFault? = none ↔ ∀ a n, ¬ root.FaultAt a n := by
  rw [firstFault?, ← map_snd_places, List.find?_eq_none]
  constructor
  · intro h a n hfault
    obtain ⟨hmem, hfaulty⟩ := faultAt_iff.1 hfault
    exact h n (List.mem_map.2 ⟨(a, n), hmem, rfl⟩) hfaulty
  · intro h n hn hfaulty
    obtain ⟨⟨a, n⟩, hmem, rfl⟩ := List.mem_map.1 hn
    exact h a n (faultAt_iff.2 ⟨hmem, hfaulty⟩)

/-- What is found first in the traversal has the least address. -/
theorem exists_firstFaultAt (h : root.firstFault? = some n) : ∃ a, root.FirstFaultAt a n := by
  rw [firstFault?, ← map_snd_places, List.find?_map] at h
  obtain ⟨⟨a, n⟩, hfind, rfl⟩ := Option.map_eq_some_iff.1 h
  obtain ⟨hfaulty, before, after, hplaces, hbefore⟩ := List.find?_eq_some_iff_append.1 hfind
  have hmem : (a, n) ∈ root.places := by simp [hplaces]
  have hlater : ∀ p ∈ after, a < p.1 := by
    have hpairwise := root.pairwise_places
    rw [hplaces, List.pairwise_append, List.pairwise_cons] at hpairwise
    exact hpairwise.2.1.1
  refine ⟨a, faultAt_iff.2 ⟨hmem, hfaulty⟩, ?_⟩
  intro b m hfault
  obtain ⟨hb, hm⟩ := faultAt_iff.1 hfault
  rw [hplaces, List.mem_append, List.mem_cons] at hb
  rcases hb with hb | hb | hb
  · have := hbefore (b, m) hb
    simp [hm] at this
  · cases hb
    exact List.lt_irrefl a
  · exact List.lt_asymm (hlater (b, m) hb)

theorem any_isFaulty : root.preorder.any isFaulty = root.firstFault?.isSome := by
  rw [firstFault?, List.isSome_find?]

/-- A tree is refused by its first fault. -/
theorem checked_eq (root : ConcreteNode) (file : String) :
    root.checked file =
      match root.firstFault? with
      | some n => .error ⟨file, n.line⟩
      | none => .ok root := by
  rw [checked, any_isFaulty, firstFaultLine]
  cases root.firstFault? <;> rfl

theorem checked_eq_error_iff {file : String} {e : ParseError} :
    root.checked file = .error e ↔ ∃ n, root.firstFault? = some n ∧ e = ⟨file, n.line⟩ := by
  rw [checked_eq]
  cases root.firstFault? with
  | none => simp
  | some n => simp [eq_comm]

/-! ## Nested rows -/

/-- The rows of a tree are nested as its nodes are: every child lies within
the rows of its parent, and no child starts on a row before the one on
which the child before it ends. -/
inductive Nested : ConcreteNode → Prop
  /-- By the children of the root, and by the trees below it. -/
  | intro {n : ConcreteNode}
      (within : ∀ c ∈ n.children,
        n.startRow ≤ c.startRow ∧ c.startRow ≤ c.endRow ∧ c.endRow ≤ n.endRow)
      (apart : n.children.IsChain fun c d => c.endRow ≤ d.startRow)
      (below : ∀ c ∈ n.children, Nested c) : Nested n

/-- Children that follow one another lie apart from all that follow. -/
theorem pairwise_of_isChain {cs : List ConcreteNode}
    (hrows : ∀ c ∈ cs, c.startRow ≤ c.endRow)
    (h : cs.IsChain fun c d => c.endRow ≤ d.startRow) :
    cs.Pairwise fun c d => c.endRow ≤ d.startRow := by
  induction cs with
  | nil => exact List.Pairwise.nil
  | cons c cs ih =>
    cases cs with
    | nil => exact List.pairwise_singleton _ c
    | cons next cs =>
      obtain ⟨hnext, hcs⟩ := List.isChain_cons_cons.1 h
      have hrest := ih (fun d hd => hrows d (List.mem_cons_of_mem c hd)) hcs
      have hnextRows := hrows next (by simp)
      refine List.pairwise_cons.2 ⟨?_, hrest⟩
      intro d hd
      rcases List.mem_cons.1 hd with rfl | hd
      · exact hnext
      · have := (List.pairwise_cons.1 hrest).1 d hd
        omega

/-- All nodes of a tree start within its rows. -/
theorem Nested.startRow_mem (h : n.Nested) (hrows : n.startRow ≤ n.endRow) :
    ∀ m ∈ n.preorder, n.startRow ≤ m.startRow ∧ m.startRow ≤ n.endRow := by
  induction h with
  | @intro n within apart below ih =>
    intro m hm
    rw [preorder_eq, List.mem_cons, List.mem_flatMap] at hm
    rcases hm with rfl | ⟨c, hc, hm⟩
    · exact ⟨le_rfl, hrows⟩
    · have hchild := within c hc
      have hbelow := ih c hc hchild.2.1 m hm
      omega

/-- **No row goes back in pre-order.** -/
theorem Nested.pairwise_startRow (h : n.Nested) :
    n.preorder.Pairwise fun m m' => m.startRow ≤ m'.startRow := by
  induction h with
  | @intro n within apart below ih =>
    have hspread : ∀ c ∈ n.children, ∀ m ∈ c.preorder, c.startRow ≤ m.startRow ∧
        m.startRow ≤ c.endRow :=
      fun c hc => (below c hc).startRow_mem (within c hc).2.1
    rw [preorder_eq, List.pairwise_cons]
    constructor
    · intro m hm
      obtain ⟨c, hc, hm⟩ := List.mem_flatMap.1 hm
      have hchild := within c hc
      have hbelow := hspread c hc m hm
      omega
    · rw [List.pairwise_flatMap]
      refine ⟨ih, ?_⟩
      have happart := pairwise_of_isChain (fun c hc => (within c hc).2.1) apart
      refine happart.imp_of_mem fun {c d} hc hd hcd m hm m' hm' => ?_
      have hfirst := hspread c hc m hm
      have hsecond := hspread d hd m' hm'
      omega

/-- Where rows are nested the first fault is on the least line. -/
theorem Nested.line_le (h : root.Nested) (hn : root.firstFault? = some n)
    (hm : root.FaultAt b m) : n.line ≤ m.line := by
  obtain ⟨hmem, hfaulty⟩ := faultAt_iff.1 hm
  obtain ⟨-, before, after, hplaces, hbefore⟩ := List.find?_eq_some_iff_append.1 hn
  have hm : m ∈ root.preorder := by
    rw [← map_snd_places]
    exact List.mem_map.2 ⟨(b, m), hmem, rfl⟩
  have hpairwise := h.pairwise_startRow
  rw [hplaces, List.mem_append, List.mem_cons] at hm
  rw [hplaces, List.pairwise_append, List.pairwise_cons] at hpairwise
  have hle : n.startRow ≤ m.startRow := by
    rcases hm with hm | rfl | hm
    · have := hbefore m hm
      simp [hfaulty] at this
    · exact le_rfl
    · exact hpairwise.2.1.1 m hm
  rw [line, line]
  omega

/-! ## The report -/

/-- What the check of a tree tells of the faults in it. -/
structure ReportsFirstFault (root : ConcreteNode) (file : String) : Prop where
  /-- The traversal comes to every node once, in the order of addresses. -/
  visited : ∃ places : List (List Nat × ConcreteNode), places.map Prod.snd = root.preorder ∧
    places.Pairwise (fun p q => p.1 < q.1) ∧ ∀ a n, (a, n) ∈ places ↔ root.at? a = some n
  /-- A tree is refused exactly if a faulty node stands in it. -/
  refused_iff : (∃ e, root.checked file = .error e) ↔ ∃ a n, root.FaultAt a n
  /-- Otherwise it is handed on as it is. -/
  accepted_iff : ∀ t, root.checked file = .ok t ↔ t = root ∧ ∀ a n, ¬ root.FaultAt a n
  /-- The fault with the least address is what the traversal finds, and its
  line is the one reported. -/
  first : ∀ e, root.checked file = .error e →
    ∃ a n, root.FirstFaultAt a n ∧ root.firstFault? = some n ∧ e = ⟨file, n.startRow + 1⟩
  /-- If the rows are nested this is the least line of any fault. -/
  least : root.Nested → ∀ e, root.checked file = .error e →
    IsLeast {line | ∃ a n, root.FaultAt a n ∧ line = n.startRow + 1} e.line
  /-- The report has its text unless a row lies beyond those a grammar
  counts. -/
  message : (∀ a n, root.at? a = some n → 0 ≤ n.startRow ∧ n.startRow < 4294967296) →
    ∀ e, root.checked file = .error e → e.message = s!"Syntax error in {file} near line {e.line}"

/-- **A tree is refused by its first fault.** -/
theorem checked_reports_first_fault (root : ConcreteNode) (file : String) :
    root.ReportsFirstFault file := by
  have hfound : ∀ e, root.checked file = .error e →
      ∃ a n, root.FirstFaultAt a n ∧ root.firstFault? = some n ∧ e = ⟨file, n.startRow + 1⟩ := by
    intro e he
    obtain ⟨n, hn, rfl⟩ := checked_eq_error_iff.1 he
    obtain ⟨a, ha⟩ := exists_firstFaultAt hn
    exact ⟨a, n, ha, hn, rfl⟩
  refine ⟨⟨root.places, root.map_snd_places, root.pairwise_places, fun a n => mem_places⟩, ?_, ?_,
    hfound, ?_, ?_⟩
  · constructor
    · rintro ⟨e, he⟩
      obtain ⟨a, n, ha, -⟩ := hfound e he
      exact ⟨a, n, ha.1⟩
    · rintro ⟨a, n, ha⟩
      rw [checked_eq]
      cases hnone : root.firstFault? with
      | none => exact absurd ha (firstFault?_eq_none_iff.1 hnone a n)
      | some m => exact ⟨_, rfl⟩
  · intro t
    rw [← firstFault?_eq_none_iff, checked_eq]
    cases root.firstFault? with
    | none => simp [eq_comm]
    | some n => simp
  · intro hnested e he
    obtain ⟨a, n, ha, hn, rfl⟩ := hfound e he
    refine ⟨⟨a, n, ha.1, rfl⟩, ?_⟩
    rintro line ⟨b, m, hm, rfl⟩
    exact hnested.line_le hn hm
  · intro hrows e he
    obtain ⟨a, n, ha, -, rfl⟩ := hfound e he
    have hn := hrows a n ha.1.1
    have hshort : isOverlong (n.startRow + 1) = false := isOverlong_eq_false (by omega)
    rw [ParseError.message, ParseError.isUnwritable, hshort]
    rfl

/-- A class with an error in its body and without its last token, and then
another error. -/
def unclosedClass : ConcreteNode where
  type := "program"
  endRow := 4
  children :=
    [{ type := "class", endRow := 3, children :=
        [{ type := "body_statement", startRow := 1, endRow := 2, children :=
            [{ type := "ERROR", startRow := 2, endRow := 2 }] },
          { type := "end", named := false, missing := true, startRow := 3, endRow := 3 }] },
      { type := "ERROR", startRow := 3, endRow := 4 }]

/-- The error in the body is reported, by the deepest of three faults. -/
theorem unclosedClass_refused :
    unclosedClass.Nested ∧
      unclosedClass.checked "a.rb" = .error ⟨"a.rb", 3⟩ ∧
      IsLeast {line | ∃ a n, unclosedClass.FaultAt a n ∧ line = n.startRow + 1} 3 := by
  have hnested : unclosedClass.Nested := by
    refine .intro (by simp [unclosedClass]) (by simp [unclosedClass]) ?_
    simp only [unclosedClass, List.forall_mem_cons, List.not_mem_nil, false_implies, implies_true,
      and_true]
    refine ⟨.intro (by simp) (by simp) ?_, .intro (by simp) (by simp) (by simp)⟩
    simp only [List.forall_mem_cons, List.not_mem_nil, false_implies, implies_true, and_true]
    refine ⟨.intro (by simp) (by simp) ?_, .intro (by simp) (by simp) (by simp)⟩
    simp only [List.forall_mem_cons, List.not_mem_nil, false_implies, implies_true, and_true]
    exact .intro (by simp) (by simp) (by simp)
  have hchecked : unclosedClass.checked "a.rb" = .error ⟨"a.rb", 3⟩ := by
    simp [checked_eq, firstFault?, unclosedClass, preorder_eq, isFaulty, line]
  exact ⟨hnested, hchecked,
    (checked_reports_first_fault unclosedClass "a.rb").least hnested _ hchecked⟩

end ConcreteNode

end ConstGraph
