import ConstGraph.Proofs.Layouts

/-!
# Converted trees are well formed

Conversion builds every node with the children its kind asks for. Where the
rows of a concrete tree are in order no node is refused, so the one thing
that stops a conversion is a tree that is too deep, and its height says when
that can be.

`Yields` is a small logic of conversions: what an action gives, or that it
stops for the depth. There is one lemma for each construct, about a node
whose children convert, and `yields_convert` ties them together.
-/

namespace ConstGraph

/-! ## Concrete trees -/

namespace ConcreteNode

theorem preorderFrom_eq (stack met : List ConcreteNode) :
    preorderFrom stack met = met.reverse ++ stack.flatMap preorder := by
  -- on the size of the stack: the children of its first tree are less than all of it
  induction hsize : sizes stack using Nat.strongRecOn generalizing stack met with
  | ind size ih =>
    subst hsize
    cases stack with
    | nil => simp [preorderFrom]
    | cons n rest =>
      have hrest := ih _ (sizes_children_lt n rest) (n.children ++ rest) (n :: met) rfl
      have hbelow : sizes n.children < sizes (n :: rest) := by
        rw [sizes, size_eq]
        omega
      have hchildren := ih _ hbelow n.children [n] rfl
      rw [preorderFrom, hrest, List.flatMap_cons, preorder, preorderFrom, List.append_nil, hchildren]
      simp

/-- **The nodes of a tree** are the root and then those of its children. -/
theorem preorder_eq (n : ConcreteNode) : n.preorder = n :: n.children.flatMap preorder := by
  rw [preorder, preorderFrom, List.append_nil, preorderFrom_eq]
  rfl

/-- No node of the tree starts before row 0 or ends before it starts. -/
def RowsInOrder (root : ConcreteNode) : Prop :=
  ∀ n ∈ root.preorder, 0 ≤ n.startRow ∧ n.startRow ≤ n.endRow

mutual

/-- The number of nodes on the longest way down a tree. -/
def height : ConcreteNode → Nat
  | ⟨_, _, _, _, _, _, _, children⟩ => 1 + heights children

/-- The height of the highest of some trees. -/
def heights : List ConcreteNode → Nat
  | [] => 0
  | n :: ns => max n.height (heights ns)

end

theorem height_eq (n : ConcreteNode) : n.height = 1 + heights n.children := by
  cases n
  rw [height]

theorem height_le_heights {c : ConcreteNode} {ns : List ConcreteNode} (h : c ∈ ns) :
    c.height ≤ heights ns := by
  induction ns with
  | nil => cases h
  | cons n ns ih =>
    rw [heights]
    rcases List.mem_cons.1 h with rfl | h
    · omega
    · have := ih h
      omega

/-- The rows of the tree are in order, and it is no higher than `k`. -/
structure Small (k : Nat) (n : ConcreteNode) : Prop where
  /-- The rows are in order. -/
  rows : n.RowsInOrder
  /-- The tree is not too high. -/
  height : n.height ≤ k

namespace Small

variable {k : Nat} {n c : ConcreteNode}

theorem pos (h : n.Small k) : 0 < k := by
  have := h.height
  rw [height_eq] at this
  omega

theorem mono {l : Nat} (h : n.Small k) (hkl : k ≤ l) : n.Small l := ⟨h.rows, Nat.le_trans h.height hkl⟩

theorem child (h : n.Small (k + 1)) (hc : c ∈ n.children) : c.Small k where
  rows := by
    intro m hm
    refine h.rows m ?_
    rw [preorder_eq]
    exact List.mem_cons_of_mem n (List.mem_flatMap.2 ⟨c, hc, hm⟩)
  height := by
    have hheight := h.height
    have hle := height_le_heights hc
    rw [height_eq] at hheight
    omega

end Small

theorem mem_children_of_expressions {n c : ConcreteNode} {without : List String}
    (h : c ∈ n.expressions without) : c ∈ n.children := by
  have hkept : ∀ (fields : List String) (cs : List ConcreteNode),
      (fields.foldl (fun cs f => cs.eraseP (·.fills f)) cs).Sublist cs := by
    intro fields
    induction fields with
    | nil => exact fun cs => List.Sublist.refl cs
    | cons f fields ih => exact fun cs => (ih _).trans List.eraseP_sublist
  exact (hkept without n.children).subset (List.mem_filter.1 (List.mem_filter.1 h).1).1

namespace Small

variable {k : Nat} {n c : ConcreteNode}

theorem phrase (h : n.Small (k + 1)) (hc : c ∈ n.phrases) : c.Small k :=
  h.child (List.mem_filter.1 hc).1

theorem field {name : String} (h : n.Small (k + 1)) (hc : n.child? name = some c) : c.Small k :=
  h.child (List.mem_of_find?_eq_some hc)

theorem expression {without : List String} (h : n.Small (k + 1))
    (hc : c ∈ n.expressions without) : c.Small k :=
  h.child (mem_children_of_expressions hc)

end Small

end ConcreteNode

/-! ## What a conversion yields -/

namespace Conversion

variable {α β : Type} {deep : Prop} {P : α → Prop} {Q : β → Prop} {act : Conversion α}

/-- Whatever the locals in scope, the action gives a value with the
property, or it stops at a tree that is too deep where `deep` holds. -/
def Yields (deep : Prop) (P : α → Prop) (act : Conversion α) : Prop :=
  ∀ s, (∃ a s', act s = .ok (a, s') ∧ P a) ∨ (act s = .error .tooDeep ∧ deep)

theorem yields_pure {a : α} (h : P a) : Yields deep P (pure a : Conversion α) :=
  fun s => Or.inl ⟨a, s, rfl, h⟩

theorem yields_tooDeep (h : deep) : Yields deep P (throw .tooDeep : Conversion α) :=
  fun _ => Or.inr ⟨rfl, h⟩

theorem Yields.bind (h : Yields deep P act) {f : α → Conversion β}
    (hf : ∀ a, P a → Yields deep Q (f a)) : Yields deep Q (act >>= f) := by
  intro s
  rcases h s with ⟨a, s', hact, ha⟩ | ⟨hact, hdeep⟩
  · rw [Outline.bind_apply, hact]
    exact hf a ha s'
  · rw [Outline.bind_apply, hact]
    exact Or.inr ⟨rfl, hdeep⟩

theorem Yields.mono {deep' : Prop} {P' : α → Prop} (h : Yields deep P act) (hdeep : deep → deep')
    (hP : ∀ a, P a → P' a) : Yields deep' P' act := by
  intro s
  rcases h s with ⟨a, s', hact, ha⟩ | ⟨hact, hd⟩
  · exact Or.inl ⟨a, s', hact, hP a ha⟩
  · exact Or.inr ⟨hact, hdeep hd⟩

theorem Yields.inFresh (h : Yields deep P act) : Yields deep P (inFresh act) := by
  intro s
  rcases h .empty with ⟨a, s', hact, ha⟩ | ⟨hact, hdeep⟩
  · exact Or.inl ⟨a, s, by rw [Conversion.inFresh, hact]; rfl, ha⟩
  · exact Or.inr ⟨by rw [Conversion.inFresh, hact]; rfl, hdeep⟩

theorem Yields.inChild (h : Yields deep P act) : Yields deep P (inChild act) := by
  intro s
  rcases h s.child with ⟨a, s', hact, ha⟩ | ⟨hact, hdeep⟩
  · exact Or.inl ⟨a, s, by rw [Conversion.inChild, hact]; rfl, ha⟩
  · exact Or.inr ⟨by rw [Conversion.inChild, hact]; rfl, hdeep⟩

theorem yields_declare (x : String) : Yields deep (fun _ => True) (declare x) :=
  fun s => Or.inl ⟨(), s.declare x, rfl, trivial⟩

theorem yields_gather {P : SyntaxTree → Prop} {f : ConcreteNode → Conversion (List SyntaxTree)}
    {ns : List ConcreteNode} (h : ∀ n ∈ ns, Yields deep (fun ts => ∀ t ∈ ts, P t) (f n)) :
    Yields deep (fun ts => ∀ t ∈ ts, P t) (gather f ns) := by
  induction ns with
  | nil => exact yields_pure (by simp)
  | cons n ns ih =>
    obtain ⟨hn, hns⟩ := List.forall_mem_cons.1 h
    rw [gather]
    refine hn.bind fun ts hts => (ih hns).bind fun us hus => yields_pure fun t ht => ?_
    rcases List.mem_append.1 ht with ht | ht
    · exact hts t ht
    · exact hus t ht

theorem yields_forM {f : ConcreteNode → Conversion Unit} {ns : List ConcreteNode}
    (h : ∀ n ∈ ns, Yields deep (fun _ => True) (f n)) :
    Yields deep (fun _ => True) (ns.forM f) := by
  induction ns with
  | nil => exact yields_pure trivial
  | cons n ns ih =>
    obtain ⟨hn, hns⟩ := List.forall_mem_cons.1 h
    change Yields deep _ (f n >>= fun _ => ns.forM f)
    exact hn.bind fun _ _ => ih hns

/-! ## One construct after the other -/

/-- The tree is a well-formed node. -/
def WellBuilt (t : SyntaxTree) : Prop := t.isNode ∧ t.WellFormed

/-- The tree is a well-formed node, or a gap. -/
def WellFilled (t : SyntaxTree) : Prop := t.name? = none ∧ t.WellFormed

theorem WellBuilt.wellFilled {t : SyntaxTree} (h : WellBuilt t) : WellFilled t := by
  obtain ⟨hnode, hwell⟩ := h
  cases t with
  | node kind children span tag => exact ⟨rfl, hwell⟩
  | _ => cases hnode

variable {n : ConcreteNode} {k depth : Nat}

theorem yields_span (hn : n.RowsInOrder) :
    Yields deep (fun s => 1 ≤ s.first ∧ s.first ≤ s.last) (span n) := by
  obtain ⟨hstart, hend⟩ := hn n (by rw [ConcreteNode.preorder_eq]; exact List.mem_cons_self)
  have hlines : n.line ≤ n.endRow + 1 := by
    rw [ConcreteNode.line]
    omega
  have hfirst : 1 ≤ n.line := by
    rw [ConcreteNode.line]
    omega
  rw [span, LineSpan.ofLines, dif_pos hlines]
  exact yields_pure ⟨hfirst, hlines⟩

/-- **A node is built as its kind asks for.** -/
theorem yields_build (hn : n.RowsInOrder) {kind : NodeKind} {children : List SyntaxTree}
    (hlayout : kind.LaysOut children) (hchildren : ∀ c ∈ children, c.WellFormed) :
    Yields deep WellBuilt (build n kind children) :=
  (yields_span hn).bind fun _ hspan => yields_pure ⟨rfl, .node hlayout hspan hchildren⟩

theorem yields_tagged (hn : n.RowsInOrder) (tag : String) {children : List SyntaxTree}
    (hchildren : ∀ c ∈ children, c.WellFormed) : Yields deep WellBuilt (tagged n tag children) :=
  (yields_span hn).bind fun _ hspan => yields_pure ⟨rfl, .node trivial hspan hchildren⟩

/-- Declaring the identifiers of a tree stops only at a tree that is higher
than the depth. -/
theorem yields_declareAll (hn : n.Small k) :
    Yields (depth < k) (fun _ => True) (declareAll depth n) := by
  induction depth generalizing n k with
  | zero => exact yields_tooDeep hn.pos
  | succ depth ih =>
    obtain ⟨k, rfl⟩ := Nat.exists_eq_add_one_of_ne_zero (Nat.ne_of_gt hn.pos)
    have hphrases : ∀ c ∈ n.phrases, c.Small k := fun c hc =>
      hn.phrase hc
    rw [declareAll]
    split
    · exact yields_declare _
    · exact yields_forM fun c hc => (ih (hphrases c hc)).mono (by omega) fun _ => id

section

variable {conv : ConcreteNode → Conversion SyntaxTree}

/-- The trees that are no higher than `k` convert. -/
def Converts (deep : Prop) (k : Nat) (conv : ConcreteNode → Conversion SyntaxTree) : Prop :=
  ∀ c, c.Small k → Yields deep WellBuilt (conv c)

theorem yields_each (h : Converts deep k conv) {ns : List ConcreteNode} (hns : ∀ c ∈ ns, c.Small k) :
    Yields deep (fun ts => ∀ t ∈ ts, WellBuilt t) (each conv ns) :=
  yields_gather fun n hn => (h n (hns n hn)).bind fun t ht => yields_pure (by simpa using ht)

theorem yields_expressions (h : Converts deep k conv) (hn : n.Small (k + 1))
    (without : List String) :
    Yields deep (fun ts => ∀ t ∈ ts, WellBuilt t) (each conv (n.expressions without)) :=
  yields_each h fun _ hc => hn.expression hc

theorem yields_optional (h : Converts deep k conv) (n? : Option ConcreteNode)
    (hn : ∀ c, n? = some c → c.Small k) : Yields deep WellFilled (optional conv n?) := by
  cases n? with
  | none => exact yields_pure ⟨rfl, .absent⟩
  | some c => exact (h c (hn c rfl)).mono id fun _ ht => ht.wellFilled

theorem yields_child (h : Converts deep k conv) (hn : n.Small (k + 1)) (field : String) :
    Yields deep WellFilled (optional conv (n.child? field)) :=
  yields_optional h _ fun _ hc => hn.field hc

theorem yields_body (h : Converts deep k conv) (hn : n.Small (k + 1)) (without : List String) :
    Yields deep (fun ts => ∀ t ∈ ts, WellBuilt t) (body conv n without) := by
  unfold body
  cases hbody : n.child? "body" with
  | none => exact yields_expressions h hn without
  | some b =>
    have hb : b.Small k := hn.field hbody
    dsimp only
    split
    · exact yields_expressions h (hb.mono (by omega)) []
    · exact (h b hb).bind fun t ht => yields_pure (by simpa using ht)

theorem forall_wellFormed {ts : List SyntaxTree} (h : ∀ t ∈ ts, WellBuilt t) :
    ∀ t ∈ ts, t.WellFormed := fun t ht => (h t ht).2

theorem yields_moduleDef (h : Converts deep k conv) (hn : n.Small (k + 1)) :
    Yields deep WellBuilt (moduleDef conv n) := by
  unfold moduleDef
  refine (yields_child h hn "name").bind fun name hname => ?_
  refine (yields_body h hn _).inFresh.bind fun body hbody => ?_
  exact yields_build hn.rows ⟨name, body, rfl, hname.1⟩
    (List.forall_mem_cons.2 ⟨hname.2, forall_wellFormed hbody⟩)

theorem yields_classDef (h : Converts deep k conv) (hn : n.Small (k + 1)) :
    Yields deep WellBuilt (classDef conv n) := by
  have hsuperclass : ∀ c, superclass? n = some c → c.Small k := by
    intro c hc
    obtain ⟨s, hs, hhead⟩ := Option.bind_eq_some_iff.1 hc
    have hsmall : s.Small k := hn.field hs
    exact (hsmall.mono (Nat.le_succ k)).expression (List.mem_of_head? hhead)
  unfold classDef
  refine (yields_child h hn "name").bind fun name hname => ?_
  refine (yields_optional h _ hsuperclass).bind fun superclass hparent => ?_
  refine (yields_body h hn _).inFresh.bind fun body hbody => ?_
  exact yields_build hn.rows ⟨name, superclass, body, rfl, hname.1, hparent.1⟩
    (List.forall_mem_cons.2 ⟨hname.2, List.forall_mem_cons.2 ⟨hparent.2, forall_wellFormed hbody⟩⟩)

theorem yields_singletonClass (h : Converts deep k conv) (hn : n.Small (k + 1)) :
    Yields deep WellBuilt (singletonClass conv n) := by
  unfold singletonClass
  refine (yields_child h hn "value").bind fun value hvalue => ?_
  refine (yields_body h hn _).inFresh.bind fun body hbody => ?_
  exact yields_tagged hn.rows _ (List.forall_mem_cons.2 ⟨hvalue.2, forall_wellFormed hbody⟩)

theorem yields_signature (h : Converts deep k conv) (hn : n.Small (k + 1))
    (without : List String) :
    Yields deep (fun ts => ∀ t ∈ ts, t.WellFormed) (signature conv n without) := by
  unfold signature
  refine (yields_child h hn "parameters").bind fun parameters hparameters => ?_
  refine (yields_body h hn _).bind fun body hbody => yields_pure ?_
  exact List.forall_mem_cons.2 ⟨hparameters.2, forall_wellFormed hbody⟩

theorem yields_method (h : Converts deep k conv) (hn : n.Small (k + 1)) :
    Yields deep WellBuilt (method conv n) := by
  unfold method
  refine (yields_signature h hn _).inFresh.bind fun rest hrest => ?_
  exact yields_build hn.rows ⟨_, rest, rfl⟩ (List.forall_mem_cons.2 ⟨.name _, hrest⟩)

theorem yields_singletonMethod (h : Converts deep k conv) (hn : n.Small (k + 1)) :
    Yields deep WellBuilt (singletonMethod conv n) := by
  unfold singletonMethod
  refine (yields_child h hn "object").bind fun receiver hreceiver => ?_
  refine (yields_signature h hn _).inFresh.bind fun rest hrest => ?_
  exact yields_build hn.rows ⟨receiver, _, rest, rfl⟩
    (List.forall_mem_cons.2 ⟨hreceiver.2, List.forall_mem_cons.2 ⟨.name _, hrest⟩⟩)

theorem yields_qualifier (h : Converts deep k conv) (hn : n.Small (k + 1)) :
    Yields deep WellBuilt (qualifier conv n) := by
  unfold qualifier
  cases hscope : n.child? "scope" with
  | none => exact yields_build hn.rows rfl (by simp)
  | some q => exact h q (hn.field hscope)

/-- A constant with its qualifier. -/
theorem yields_constant (hn : n.RowsInOrder) {q : SyntaxTree} (hq : WellFilled q) (x : String) :
    Yields deep WellBuilt (build n .constant [q, .name x]) :=
  yields_build hn ⟨q, x, rfl, hq.1⟩ (by simp [hq.2, SyntaxTree.WellFormed.name])

theorem yields_plain (h : Converts deep k conv) (hn : n.Small (k + 1)) :
    Yields deep WellBuilt (do plain n (← each conv (n.expressions []))) :=
  (yields_expressions h hn []).bind fun _ hts => yields_tagged hn.rows _ (forall_wellFormed hts)

theorem yields_qualified (h : Converts deep k conv) (hn : n.Small (k + 1)) :
    Yields deep WellBuilt (qualified conv n) := by
  unfold qualified
  cases n.child? "name" with
  | none => exact yields_plain h hn
  | some name =>
    dsimp only
    split
    · refine (yields_qualifier h hn).bind fun q hq => ?_
      exact yields_constant hn.rows hq.wellFilled _
    · exact yields_plain h hn

theorem yields_identifier (hn : n.RowsInOrder) : Yields deep WellBuilt (identifier n) := by
  have hname : ∀ t ∈ [SyntaxTree.name n.text], t.WellFormed := by
    simp [SyntaxTree.WellFormed.name]
  have hget : Yields deep (fun _ => True) (get : Conversion LocalScope) :=
    fun s => Or.inl ⟨s, s, rfl, trivial⟩
  unfold identifier
  refine hget.bind fun s _ => ?_
  split
  · exact yields_build hn ⟨n.text, rfl⟩ hname
  · exact yields_build hn ⟨.absent, n.text, [], rfl, rfl, by simp⟩
      (List.forall_mem_cons.2 ⟨.absent, hname⟩)

theorem yields_send (h : Converts deep k conv) (hn : n.Small (k + 1))
    (method? : Option ConcreteNode) : Yields deep WellBuilt (send conv n method?) := by
  unfold send
  refine (yields_child h hn "receiver").bind fun receiver hreceiver => ?_
  -- the same node is built on both ways, with arguments or without
  have hbuild : ∀ (x : String) (arguments : List SyntaxTree), (∀ t ∈ arguments, WellBuilt t) →
      Yields deep WellBuilt (build n .call (receiver :: .name x :: arguments)) := by
    intro x arguments hargs
    have hnodes : ∀ a ∈ arguments, a.isNode := fun a ha => (hargs a ha).1
    refine yields_build hn.rows ⟨receiver, x, arguments, rfl, hreceiver.1, hnodes⟩ ?_
    simp only [List.forall_mem_cons]
    exact ⟨hreceiver.2, .name x, forall_wellFormed hargs⟩
  dsimp only
  cases hargs : n.child? "arguments" with
  | none => exact hbuild _ [] (by simp)
  | some a =>
    have ha : a.Small k := hn.field hargs
    exact (yields_expressions h (ha.mono (by omega)) []).bind fun arguments => hbuild _ arguments

theorem yields_call (h : Converts deep k conv) (hn : n.Small (k + 1)) :
    Yields deep WellBuilt (call conv n) := by
  unfold call
  dsimp only
  split
  · refine (yields_expressions h hn _).bind fun ts hts => ?_
    exact yields_tagged hn.rows _ (forall_wellFormed hts)
  · refine (yields_send h hn _).bind fun sent hsent => ?_
    cases hblock : n.child? "block" with
    | none => exact yields_pure hsent
    | some b =>
      -- the block is taken apart, and its children are well formed too
      refine (h b (hn.field hblock)).bind fun t ht => ?_
      exact yields_tagged hn.rows _ (List.forall_mem_cons.2 ⟨hsent.2, ht.2.children⟩)

theorem yields_assign (hn : n.RowsInOrder) (x : String) {value : SyntaxTree}
    (hvalue : WellFilled value) :
    Yields deep WellBuilt (build n .localAssign [.name x, value]) :=
  yields_build hn ⟨x, value, rfl, hvalue.1⟩ (by simp [hvalue.2, SyntaxTree.WellFormed.name])

theorem yields_target (hn : n.RowsInOrder) : Yields deep WellBuilt (target n) :=
  (yields_declare _).bind fun _ _ => yields_assign hn _ ⟨rfl, .absent⟩

/-- The targets of an assignment stop only at one that is higher than the
depth. -/
theorem yields_targets (h : Converts deep k conv) {j : Nat} (hn : n.Small j) (hj : j ≤ k)
    (hdeep : depth < j → deep) :
    Yields deep (fun ts => ∀ t ∈ ts, WellBuilt t) (targets conv depth n) := by
  induction depth generalizing n j with
  | zero => exact yields_tooDeep (hdeep hn.pos)
  | succ depth ih =>
    obtain ⟨j, rfl⟩ := Nat.exists_eq_add_one_of_ne_zero (Nat.ne_of_gt hn.pos)
    rw [targets]
    refine yields_gather fun c hc => ?_
    have hsmall : c.Small j := hn.phrase hc
    split
    · exact (yields_target hsmall.rows).bind fun t ht => yields_pure (by simpa using ht)
    · split
      -- only nested targets use up the depth
      · exact ih hsmall (by omega) fun hlt => hdeep (by omega)
      · refine (h c (hsmall.mono (by omega))).bind fun t ht => yields_pure (by simpa using ht)

theorem yields_assignment (h : Converts deep k conv) (hn : n.Small (k + 1))
    (hdeep : depth < k → deep) : Yields deep WellBuilt (assignment conv depth n) := by
  have hright := yields_child h hn "right"
  unfold assignment
  dsimp only
  cases hleft : n.child? "left" with
  | none =>
    refine hright.bind fun value hvalue => yields_tagged hn.rows _ ?_
    simp [hvalue.2, SyntaxTree.WellFormed.absent]
  | some left =>
    have hsmall : left.Small k := hn.field hleft
    dsimp only
    split
    · refine (yields_declare _).bind fun _ _ => hright.bind fun value hvalue => ?_
      exact yields_assign hn.rows _ hvalue
    · refine hright.bind fun value hvalue => yields_tagged hn.rows _ ?_
      simp [hvalue.2, SyntaxTree.WellFormed.absent, SyntaxTree.WellFormed.name]
    · refine (yields_qualifier h (hsmall.mono (by omega))).bind fun q hq => ?_
      refine hright.bind fun value hvalue => yields_tagged hn.rows _ ?_
      simp [hq.2, hvalue.2, SyntaxTree.WellFormed.name]
    · refine (yields_targets h hsmall (Nat.le_refl k) hdeep).bind fun ts hts => ?_
      refine hright.bind fun value hvalue => yields_tagged hn.rows _ fun t ht => ?_
      rcases List.mem_append.1 ht with ht | ht
      · exact (hts t ht).2
      · obtain rfl := List.mem_singleton.1 ht
        exact hvalue.2
    · refine (h left hsmall).bind fun t ht => ?_
      refine hright.bind fun value hvalue => yields_tagged hn.rows _ ?_
      simp [ht.2, hvalue.2]

theorem yields_operatorAssignment (h : Converts deep k conv) (hn : n.Small (k + 1)) :
    Yields deep WellBuilt (operatorAssignment conv n) := by
  have hvalue : ∀ t, WellFilled t → Yields deep WellBuilt (do
      let value ← optional conv (n.child? "right")
      plain n [t, value]) := by
    intro t ht
    refine (yields_child h hn "right").bind fun value hvalue => yields_tagged hn.rows _ ?_
    simp [ht.2, hvalue.2]
  unfold operatorAssignment
  dsimp only
  cases hleft : n.child? "left" with
  | none => exact hvalue .absent ⟨rfl, .absent⟩
  | some left =>
    have hsmall : left.Small k := hn.field hleft
    dsimp only
    split
    · exact (yields_target hsmall.rows).bind fun t ht => hvalue t ht.wellFilled
    · exact (h left hsmall).bind fun t ht => hvalue t ht.wellFilled

theorem yields_parameter (h : Converts deep k conv) (hn : n.Small k) (hdeep : depth < k → deep) :
    Yields deep (fun ts => ∀ t ∈ ts, WellBuilt t) (parameter conv depth n) := by
  have hnone : Yields deep (fun ts => ∀ t ∈ ts, WellBuilt t) (pure [] : Conversion _) :=
    yields_pure (by simp)
  have hvalue : ∀ value, n.child? "value" = some value →
      Yields deep (fun ts => ∀ t ∈ ts, WellBuilt t) (do return [← conv value]) := by
    intro value hchild
    have hsmall : value.Small k := (hn.mono (Nat.le_succ k)).field hchild
    exact (h value hsmall).bind fun t ht => yields_pure (by simpa using ht)
  unfold parameter
  dsimp only
  split
  · exact (yields_declare _).bind fun _ _ => hnone
  · split
    · exact ((yields_declareAll hn).mono hdeep fun _ => id).bind fun _ _ => hnone
    · cases hchild : n.child? "value" with
      | none =>
        cases n.child? "name" with
        | none => exact hnone
        | some name => exact (yields_declare _).bind fun _ _ => hnone
      | some value =>
        cases n.child? "name" with
        | none => exact hvalue value hchild
        | some name => exact (yields_declare _).bind fun _ _ => hvalue value hchild

/-- **A node converts if the nodes below it do**, and if what it declares
is not too deep. -/
theorem yields_convertNode (h : Converts deep k conv) (hn : n.Small (k + 1))
    (hdeep : depth ≤ k → deep) : Yields deep WellBuilt (convertNode conv depth n) := by
  have hbelow : depth < k → deep := fun hlt => hdeep (by omega)
  unfold convertNode
  cases n.construct with
  | moduleDef => exact yields_moduleDef h hn
  | classDef => exact yields_classDef h hn
  | method => exact yields_method h hn
  | singletonMethod => exact yields_singletonMethod h hn
  | singletonClass => exact yields_singletonClass h hn
  | constant => exact yields_constant hn.rows ⟨rfl, .absent⟩ _
  | qualified => exact yields_qualified h hn
  | call => exact yields_call h hn
  | identifier => exact yields_identifier hn.rows
  | assignment => exact yields_assignment h hn hbelow
  | operatorAssignment => exact yields_operatorAssignment h hn
  | parameters =>
    have hphrases : ∀ p ∈ n.phrases, p.Small k := fun p hp =>
      hn.phrase hp
    refine (yields_gather fun p hp => yields_parameter h (hphrases p hp) hbelow).bind
      fun ts hts => ?_
    exact yields_tagged hn.rows _ (forall_wellFormed hts)
  | block =>
    refine (yields_expressions h hn []).inChild.bind fun ts hts => ?_
    exact yields_tagged hn.rows _ (forall_wellFormed hts)
  | rescued =>
    -- the node itself is declared, so one level more is needed than below it
    have hdeclare : Yields deep (fun _ => True) (declareAll depth n) :=
      (yields_declareAll hn).mono (fun hlt => hdeep (by omega)) fun _ => id
    exact hdeclare.bind fun _ _ => yields_tagged hn.rows _ (by simp)
  | loop =>
    have hrest : Yields deep WellBuilt (do plain n (← each conv (n.expressions ["pattern"]))) :=
      (yields_expressions h hn _).bind fun ts hts =>
        yields_tagged hn.rows _ (forall_wellFormed hts)
    dsimp only
    cases hpattern : n.child? "pattern" with
    | none => exact hrest
    | some pattern =>
      have hsmall : pattern.Small k := hn.field hpattern
      exact ((yields_declareAll hsmall).mono hbelow fun _ => id).bind fun _ _ => hrest
  | methodNames => exact yields_tagged hn.rows _ (by simp)
  | plain => exact yields_plain h hn

end

/-- **A tree that is lower than the depth converts** to a well-formed
node. -/
theorem yields_convert (depth : Nat) (k : Nat) : Converts (depth ≤ k) k (convert depth) := by
  induction depth generalizing k with
  | zero => exact fun n _ => yields_tooDeep (Nat.zero_le k)
  | succ depth ih =>
    intro n hn
    -- the nodes below are lower by one, and the depth left for them is less by one
    obtain ⟨k, rfl⟩ := Nat.exists_eq_add_one_of_ne_zero (Nat.ne_of_gt hn.pos)
    exact (yields_convertNode (ih k) hn id).mono (by omega) fun _ => id

end Conversion

/-! ## Whole trees -/

/-- The tree is a well-formed node, and a walk of it, in any context and with
any inference, visits nodes by their layout only. -/
structure SyntaxTree.Regular (t : SyntaxTree) : Prop where
  /-- It is a node. -/
  isNode : t.isNode
  /-- Every node of it is laid out by its kind. -/
  wellFormed : t.WellFormed
  /-- Every visit is one that knows no other layout. -/
  visits : ∀ (w : Walker) (ctx : WalkContext), ∀ p ∈ t.sites,
    w.regularVisit? p.here.kind p.here.children p.here.span ctx =
      some (w.visit p.here.kind p.here.children p.here.span ctx)

namespace ConcreteNode

theorem regular_of_wellBuilt {t : SyntaxTree} (h : Conversion.WellBuilt t) : t.Regular where
  isNode := h.1
  wellFormed := h.2
  visits w ctx _ hp := w.regularVisit?_eq ctx (h.2.site hp)

/-- **Conversion produces well-formed trees only.** If the rows of a concrete
tree are in order, then at any depth and with any locals in scope it
converts to a regular tree, unless the tree is as high as the depth and the
conversion stops for that. So it is with the depth that is set. -/
theorem converted_regular {root : ConcreteNode}
    (hrows : ∀ n ∈ root.preorder, 0 ≤ n.startRow ∧ n.startRow ≤ n.endRow) :
    (∀ depth locals,
      (∃ t rest, Conversion.convert depth root locals = .ok (t, rest) ∧ t.Regular) ∨
        (Conversion.convert depth root locals = .error .tooDeep ∧ depth ≤ root.height)) ∧
      ((∃ t, root.toSyntax = .ok t ∧ t.Regular) ∨
        (root.toSyntax = .error .tooDeep ∧ Conversion.nestingLimit ≤ root.height)) := by
  have hsmall : root.Small root.height := ⟨hrows, Nat.le_refl _⟩
  have hconvert : ∀ depth locals,
      (∃ t rest, Conversion.convert depth root locals = .ok (t, rest) ∧ t.Regular) ∨
        (Conversion.convert depth root locals = .error .tooDeep ∧ depth ≤ root.height) := by
    intro depth locals
    rcases Conversion.yields_convert depth root.height root hsmall locals with
      ⟨t, rest, hok, ht⟩ | hdeep
    · exact Or.inl ⟨t, rest, hok, regular_of_wellBuilt ht⟩
    · exact Or.inr hdeep
  refine ⟨hconvert, ?_⟩
  rcases hconvert Conversion.nestingLimit .empty with ⟨t, rest, hok, ht⟩ | ⟨herror, hdeep⟩
  · exact Or.inl ⟨t, by rw [toSyntax, hok]; rfl, ht⟩
  · exact Or.inr ⟨by rw [toSyntax, herror]; rfl, hdeep⟩

/-- A class without a name, and in it a method without a name. -/
def namelessClass : ConcreteNode :=
  { type := "class", endRow := 3,
    children := [{ type := "method", startRow := 1, endRow := 2 }] }

/-- It converts to a regular tree, with a gap for the name of the class and
the empty name for the method. -/
theorem namelessClass_regular :
    (∀ n ∈ namelessClass.preorder, 0 ≤ n.startRow ∧ n.startRow ≤ n.endRow) ∧
      ∃ t, namelessClass.toSyntax = .ok t ∧ t.Regular := by
  have hrows : ∀ n ∈ namelessClass.preorder, 0 ≤ n.startRow ∧ n.startRow ≤ n.endRow := by
    simp [namelessClass, preorder_eq]
  have hheight : ¬ Conversion.nestingLimit ≤ namelessClass.height := by decide
  exact ⟨hrows, (converted_regular hrows).2.resolve_right fun hdeep => hheight hdeep.2⟩

end ConcreteNode

end ConstGraph
