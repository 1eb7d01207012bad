import ConstGraph.Proofs.LocalTypes

/-!
# Types and reassignment

A local that was given the type `P` by `x = P.new(…)` can be declared anew:
by a plain assignment, by an operator such as `+=`, as one of several
targets, or as the parameter of a block. Only the first is an assignment
that the walk passes as a whole; of an operator or a multiple assignment it
passes a node around the target, and a parameter leaves no node at all. So a
plain assignment forgets the type, and the others do not:
`types_follow_plain_assignments`.
-/

namespace ConstGraph

/-! ## How a local is declared again -/

namespace ConcreteNode

/-- The node is a call `P.new(…)` without a block. -/
structure Creates (v : ConcreteNode) (path : ConstPath) : Prop where
  /-- It is a call. -/
  isSend : v.IsSend
  /-- It has no block. -/
  blockless : v.child? "block" = none
  /-- The method is `new`. -/
  callee : v.callee = "new"
  /-- The receiver is the constant. -/
  receiver : ∃ q, v.child? "receiver" = some q ∧ q.Spells path

/-- The node is an assignment `x = P.new(…)`. -/
def Constructs (n : ConcreteNode) (x : String) (path : ConstPath) : Prop :=
  n.AssignsLocal x ∧ ∃ v, n.child? "right" = some v ∧ v.Creates path

/-- The node is an operator or multiple assignment. -/
def IsCompound (n : ConcreteNode) : Prop :=
  n.construct = .operatorAssignment ∨
    n.construct = .assignment ∧
      ∃ left, n.child? "left" = some left ∧ left.type = "left_assignment_list"

end ConcreteNode

namespace Outline

section

variable {n v : ConcreteNode} {depth : Nat} {x : String} {path : ConstPath}
  {locals : Address → String → Bool} {ts : List SyntaxTree}

theorem within_assignsLocal {left : ConcreteNode} (hn : n.construct = .assignment)
    (hleft : n.child? "left" = some left) (htype : left.type = "identifier") :
    within (depth + 1) n = node n .localAssign
      [declare left, name left.text, optional (within depth) (n.child? "right")] := by
  simp [within, ofNode, assignment, hn, hleft, htype]

/-- The outline of a node assigns a local if the node is a plain assignment
to it. -/
theorem assigned?_within : (within (depth + 1) n).assigned? = some x ↔ n.AssignsLocal x := by
  constructor
  · intro h
    have hkind : (within (depth + 1) n).kind? = some .localAssign := by
      unfold assigned? at h
      split at h
      · next hwithin => rw [hwithin]; rfl
      · cases h
    obtain ⟨y, hn, left, hleft, htype, -⟩ := makes_of_kind? hkind
    rw [within_assignsLocal hn hleft htype] at h
    exact ⟨hn, left, hleft, htype, Option.some.inj h⟩
  · rintro ⟨hn, left, hleft, htype, rfl⟩
    rw [within_assignsLocal hn hleft htype]
    rfl

theorem created?_send (out : ConcreteNode → Outline) (v : ConcreteNode) :
    (send out v).created? =
      if v.callee = "new" ∧ (optional out (v.child? "receiver")).kind? = some .constant then
        (optional out (v.child? "receiver")).spelled?
      else none := rfl

/-- The outline of a receiver is a constant that spells a path if the
receiver is. -/
theorem constant_receiver
    (h : (optional (within depth) (v.child? "receiver")).build locals = .ok ts) :
    ((optional (within depth) (v.child? "receiver")).kind? = some .constant ∧
      (optional (within depth) (v.child? "receiver")).spelled? = some path) ↔
      ∃ q, v.child? "receiver" = some q ∧ q.Spells path := by
  cases hq : v.child? "receiver" with
  | none => simp [optional, kind?]
  | some q =>
    rw [hq] at h
    change (within depth q).build locals = .ok ts at h
    change (within depth q).kind? = some .constant ∧ (within depth q).spelled? = some path ↔ _
    rw [spelled?_within h]
    constructor
    · rintro ⟨-, hspells⟩
      exact ⟨q, rfl, hspells⟩
    · rintro ⟨q', hq', hspells⟩
      cases hq'
      cases depth with
      | zero => cases h
      | succ depth =>
        obtain ⟨qualifier, y, hwithin⟩ := exists_within_constant hspells.isConstant depth
        exact ⟨by rw [hwithin]; rfl, hspells⟩

/-- The outline of a node creates what the node does. -/
theorem created?_within (h : (within depth v).build locals = .ok ts) :
    (within depth v).created? = some path ↔ v.Creates path := by
  cases depth with
  | zero => cases h
  | succ depth =>
    by_cases hv : v.IsSend ∧ v.child? "block" = none
    · rw [within_send hv.1 hv.2] at h ⊢
      obtain ⟨us, hus, -⟩ := build_group h
      obtain ⟨rs, vs, hrs, -⟩ := buildAll_cons hus
      rw [created?_send]
      constructor
      · intro hpath
        split at hpath
        · next hnew =>
          exact ⟨hv.1, hv.2, hnew.1, (constant_receiver hrs).1 ⟨hnew.2, hpath⟩⟩
        · cases hpath
      · intro hcreates
        obtain ⟨hkind, hpath⟩ := (constant_receiver hrs).2 hcreates.receiver
        rw [if_pos ⟨hcreates.callee, hkind⟩, hpath]
    · refine iff_of_false (fun hpath => hv ?_) fun hcreates => hv ⟨hcreates.1, hcreates.2⟩
      have hkind : (within (depth + 1) v).kind? = some .call := by
        unfold created? at hpath
        split at hpath
        · next hwithin => rw [hwithin]; rfl
        · cases hpath
      exact makes_of_kind? hkind

/-- The outline of an assignment constructs what the assignment does. -/
theorem constructed?_within (hn : n.AssignsLocal x)
    (h : (within (depth + 1) n).build locals = .ok ts) :
    (within (depth + 1) n).constructed? = some path ↔ n.Constructs x path := by
  obtain ⟨hassignment, left, hleft, htype, htext⟩ := id hn
  rw [within_assignsLocal hassignment hleft htype] at h ⊢
  change (optional (within depth) (n.child? "right")).created? = some path ↔ _
  obtain ⟨us, hus, -⟩ := build_group h
  obtain ⟨-, vs, -, hvs, -⟩ := buildAll_cons hus
  obtain ⟨-, ws, -, hws, -⟩ := buildAll_cons hvs
  obtain ⟨rs, -, hrs, -⟩ := buildAll_cons hws
  cases hright : n.child? "right" with
  | none => simp [ConcreteNode.Constructs, optional, created?, hright]
  | some v =>
    rw [hright] at hrs
    change (within depth v).created? = some path ↔ _
    rw [created?_within hrs]
    simp [ConcreteNode.Constructs, hn, hright]

/-- An operator or multiple assignment assigns no local as a whole. -/
theorem not_assignsLocal (h : n.IsCompound) : ¬ n.AssignsLocal x := by
  rintro ⟨hn, left, hleft, htype, -⟩
  rcases h with hoperator | ⟨-, left', hleft', htype'⟩
  · rw [hn] at hoperator
    cases hoperator
  · rw [hleft] at hleft'
    cases hleft'
    rw [htype] at htype'
    simp at htype'

end

/-! ## What has been passed of a sequence -/

section

variable {o sub part : Outline} {apart : Bool} {g : Grouping} {ps : List Outline} {s c : Address}
  {j k : Nat}

/-- **What has been passed below an address** is what has been passed on the
way to it, unless a definition stands in between, and then what has been
passed from there on. -/
theorem exists_seen_append (hs : o.at? s = some sub) (apart : Bool) :
    ∃ inner, ∀ a, (s ++ a ∈ o.places apart → a ∈ sub.places inner) ∧
      o.hides apart (s ++ a) = (o.hides apart s || sub.hides inner a) ∧
      o.seen apart (s ++ a) =
        (if sub.hides inner a then [] else o.seen apart s) ++ (sub.seen inner a).map (s ++ ·) := by
  induction s generalizing o apart with
  | nil =>
    obtain rfl : o = sub := by simpa [at?] using hs
    exact ⟨apart, fun a => ⟨id, rfl, by cases o.hides apart a <;> simp [seen]⟩⟩
  | cons i s ih =>
    obtain ⟨g, ps, part, rfl, hi, hpart⟩ := exists_part hs
    obtain ⟨inner, hinner⟩ := ih hpart g.takesApart
    refine ⟨inner, fun a => ?_⟩
    obtain ⟨hplaces, hhides, hseen⟩ := hinner a
    refine ⟨fun ha => hplaces ((mem_places_cons hi).1 ha).2, ?_, ?_⟩
    · rw [List.cons_append, hides_cons hi, hides_cons hi, hhides, Bool.or_assoc]
    · rw [List.cons_append, seen_cons hi, seen_cons hi, hhides, hseen]
      cases sub.hides inner a <;> simp

theorem mem_topsAll {i : Nat} {a : Address} {os : List Outline} (hj : os[j]? = some part)
    (ha : a ∈ part.tops apart) : (i + j) :: a ∈ topsAll apart i os := by
  induction os generalizing i j with
  | nil => simp at hj
  | cons o os ih =>
    rw [topsAll, List.mem_append]
    cases j with
    | zero =>
      cases hj
      exact Or.inl (List.mem_map.2 ⟨a, ha, rfl⟩)
    | succ j =>
      have hmem := ih (i := i + 1) hj
      rw [Nat.add_right_comm] at hmem
      exact Or.inr hmem

theorem nil_mem_tops (h : part.isNode) : [] ∈ part.tops false := by
  cases part with
  | read n => simp [tops]
  | group g ps =>
    have hg : g.isNode := h
    simp [tops, hg]
  | _ => cases h

/-- A part is passed over only as the name of a class or module. -/
theorem enters_eq_false (hj : g.enters j = false) (hk : g.enters k) :
    g.hidesLocals ∧ j = 0 := by
  cases g with
  | node kind tag n => cases kind <;> simp_all [Grouping.enters, Grouping.hidesLocals]
  | _ => cases hj

/-- A node among the first parts of a group has been passed when a later
part is reached, unless it is the name of a definition. -/
theorem mem_before (hfits : g.Fits ps) (hjk : j < k) (hk : k < ps.length) (hj : ps[j]? = some part)
    (hnode : part.isNode) (hleads : leadsOn apart g [j]) : [j] ∈ before apart g (ps.take k) := by
  refine List.mem_filter.2 ⟨?_, hleads⟩
  have hwhole : g.takesApart = false := by
    cases g with
    | splice =>
      obtain ⟨only, rfl, -⟩ := hfits
      simp at hk
      omega
    | _ => rfl
  have htake : (ps.take k)[j]? = some part := by rw [List.getElem?_take_of_lt hjk, hj]
  have hmem := mem_topsAll (i := 0) htake (nil_mem_tops hnode)
  rwa [Nat.zero_add, ← hwhole] at hmem

/-- **A sequence remembers its statements.** When a later part of a group is
reached, a node among its parts has been passed, or a definition has been
entered since and all that has been passed there comes after the node. -/
theorem mem_seen_or_hides (hfits : g.Fits ps) (hjk : j < k) (hj : ps[j]? = some part)
    (hnode : part.isNode) (hhere : k :: c ∈ (group g ps).places apart) :
    [j] ∈ (group g ps).seen apart (k :: c) ∨
      (group g ps).hides apart (k :: c) = true ∧
        ∀ b ∈ (group g ps).seen apart (k :: c), [j] < b := by
  cases hk : ps[k]? with
  | none =>
    rw [places, List.mem_append] at hhere
    rcases hhere with hhere | hhere
    · split at hhere <;> simp at hhere
    · obtain ⟨i, part, hi, hi', -⟩ := mem_placesAll_cons.1 (List.mem_filter.1 hhere).1
      rw [Nat.zero_add] at hi
      rw [← hi, hk] at hi'
      cases hi'
  | some inner =>
    obtain ⟨hleads, -⟩ := (mem_places_cons hk).1 hhere
    have hlt := (List.getElem?_eq_some_iff.1 hk).1
    cases hhides : inner.hides g.takesApart c with
    | true =>
      refine Or.inr ⟨by simp [hides_cons hk, hhides], fun b hb => ?_⟩
      rcases of_mem_seen_cons hk hb with ⟨hnot, -⟩ | ⟨d, -, rfl⟩
      · rw [hhides] at hnot
        cases hnot
      · exact List.cons_lt_cons_iff.2 (Or.inl hjk)
    | false =>
      cases hname : leadsOn apart g [j] with
      | true =>
        refine Or.inl ?_
        rw [seen_cons hk, hhides, List.mem_append]
        exact Or.inl (mem_before hfits hjk hlt hj hnode hname)
      | false =>
        -- the node is the name of a class or module, and the walk is inside of that
        obtain ⟨hapart, henters⟩ : apart = false ∧ g.enters j = false := by
          simpa [leadsOn] using hname
        subst hapart
        obtain ⟨hlocals, rfl⟩ := enters_eq_false henters hleads
        refine Or.inr ⟨by simp [hides_cons hk, hlocals], fun b hb => ?_⟩
        rcases of_mem_seen_cons hk hb with ⟨-, hbefore⟩ | ⟨d, -, rfl⟩
        · obtain ⟨i, -, d, rfl, -⟩ := exists_of_mem_before hbefore
          have hi : g.enters i := (List.mem_filter.1 hbefore).2
          have hne : i ≠ 0 := by
            rintro rfl
            rw [henters] at hi
            cases hi
          exact List.cons_lt_cons_iff.2 (Or.inl (Nat.pos_of_ne_zero hne))
        · exact List.cons_lt_cons_iff.2 (Or.inl hjk)

theorem hides_false (h : (group g ps).hides apart c = true) :
    (group g ps).hides false c = true := by
  cases apart with
  | false => exact h
  | true =>
    cases c with
    | nil => cases h
    | cons i c =>
      rw [hides, Bool.or_eq_true] at h ⊢
      exact Or.inr (h.resolve_left (by simp))

/-- The same of a sequence anywhere in an outline. -/
theorem mem_seen_or_later (ho : o.Proper) (hs : o.at? s = some (group g ps)) (hjk : j < k)
    (hj : ps[j]? = some part) (hnode : part.isNode) (hhere : s ++ k :: c ∈ o.places apart) :
    s ++ [j] ∈ o.seen apart (s ++ k :: c) ∨
      (group g ps).hides false (k :: c) = true ∧
        ∀ b ∈ o.seen apart (s ++ k :: c), s ++ [j] < b := by
  obtain ⟨inner, hinner⟩ := exists_seen_append hs apart
  obtain ⟨hplaces, -, hseen⟩ := hinner (k :: c)
  have hfits : g.Fits ps := by
    cases proper_at ho hs with
    | group _ hfits => exact hfits
  rw [hseen]
  rcases mem_seen_or_hides hfits hjk hj hnode (hplaces hhere) with hmem | ⟨hhides, hlater⟩
  · exact Or.inl (List.mem_append_right _ (List.mem_map.2 ⟨[j], hmem, rfl⟩))
  · refine Or.inr ⟨hides_false hhides, fun b hb => ?_⟩
    rw [hhides, if_pos rfl, List.nil_append] at hb
    obtain ⟨d, hd, rfl⟩ := List.mem_map.1 hb
    exact List.append_left_lt (hlater d hd)

end

/-! ## The last assignment counts -/

section

variable {o : Outline} {x : String} {here b s : Address} {known : Option ConstPath}

theorem foldl_retype_eq_self {as : List Address}
    (h : ∀ a ∈ as, o.assignedAt? a = some x → o.constructedAt? a = known) :
    as.foldl (o.retype x) known = known := by
  induction as with
  | nil => rfl
  | cons a as ih =>
    have hstep : o.retype x known a = known := by
      rw [retype]
      split
      · next hassigned => exact h a List.mem_cons_self hassigned
      · rfl
    rw [List.foldl_cons, hstep]
    exact ih fun a ha => h a (List.mem_cons_of_mem _ ha)

/-- **The type is that of an assignment passed**, if those passed after it
say the same. -/
theorem typeAt_of_mem_seen (hb : b ∈ o.seen false here) (hassigned : o.assignedAt? b = some x)
    (hlater : ∀ d ∈ o.seen false here, b < d → o.assignedAt? d = some x →
      o.constructedAt? d = o.constructedAt? b) :
    o.typeAt x here = o.constructedAt? b := by
  obtain ⟨front, back, hsplit⟩ := List.append_of_mem hb
  have hsorted := pairwise_seen o false here
  rw [hsplit, List.pairwise_append, List.pairwise_cons] at hsorted
  rw [typeAt, hsplit, List.foldl_append, List.foldl_cons, retype, if_pos hassigned]
  refine foldl_retype_eq_self fun d hd => hlater d ?_ (hsorted.2.1.1 d hd)
  rw [hsplit]
  exact List.mem_append_right _ (List.mem_cons_of_mem _ hd)

/-- Inside a block the type is that outside of it, until an assignment is
passed there. -/
theorem typeAt_in_block {ps : List Outline} {k : Nat} {c : Address}
    (hs : o.at? s = some (group .block ps))
    (hquiet : ∀ d ∈ o.seen false (s ++ k :: c), s <+: d → o.assignedAt? d ≠ some x) :
    o.typeAt x (s ++ k :: c) =
      if (group .block ps).hides false (k :: c) then none else o.typeAt x s := by
  obtain ⟨inner, hinner⟩ := exists_seen_append hs false
  obtain ⟨-, -, hseen⟩ := hinner (k :: c)
  have hhides : (group .block ps).hides inner (k :: c) =
      (group .block ps).hides false (k :: c) := by
    rw [hides, hides]
    simp [Grouping.hidesLocals]
  have hback (known : Option ConstPath) :
      (((group .block ps).seen inner (k :: c)).map (s ++ ·)).foldl (o.retype x) known = known := by
    refine foldl_retype_eq_self fun d hd hassigned => ?_
    have hprefix : s <+: d := by
      obtain ⟨e, -, rfl⟩ := List.mem_map.1 hd
      exact List.prefix_append s e
    refine absurd hassigned (hquiet d ?_ hprefix)
    rw [hseen]
    exact List.mem_append_right _ hd
  rw [typeAt, hseen, List.foldl_append, hback, hhides]
  cases (group .block ps).hides false (k :: c) <;> rfl

end

end Outline

/-! ## Statements of a sequence -/

namespace ConcreteNode

open Outline

section

variable {root n : ConcreteNode} {t : SyntaxTree} {x : String} {path : ConstPath} {g : Grouping}
  {ps : List Outline} {s c a : Address} {i j k depth : Nat}

theorem assignedAt?_within (h : root.toSyntax = .ok t)
    (hat : root.outline.at? a = some (within depth n)) :
    root.outline.assignedAt? a = some x ↔ n.AssignsLocal x := by
  obtain ⟨depth, -, rfl, -⟩ := exists_build_within h hat
  rw [assignedAt?, hat]
  exact assigned?_within

theorem constructedAt?_within (h : root.toSyntax = .ok t)
    (hat : root.outline.at? a = some (within depth n)) (hn : n.AssignsLocal x) :
    root.outline.constructedAt? a = some path ↔ n.Constructs x path := by
  obtain ⟨depth, us, rfl, hus⟩ := exists_build_within h hat
  rw [constructedAt?, hat]
  exact constructed?_within hn hus

/-- A plain assignment in a sequence has been passed when a later statement
is reached, or a definition has been entered since. -/
theorem mem_seen_of_assignsLocal (h : root.toSyntax = .ok t)
    (hs : root.outline.at? s = some (group g ps)) (hjk : j < k)
    (hj : ps[j]? = some (within depth n)) (hn : n.AssignsLocal x)
    (hhere : s ++ k :: c ∈ root.outline.places false) :
    s ++ [j] ∈ root.outline.seen false (s ++ k :: c) ∨
      (group g ps).hides false (k :: c) = true ∧
        ∀ b ∈ root.outline.seen false (s ++ k :: c), s ++ [j] < b := by
  have hassigned := (assignedAt?_within h ((at?_concat hs j).trans hj)).2 hn
  rw [assignedAt?, at?_concat hs j, hj, Option.bind_some] at hassigned
  refine mem_seen_or_later (proper_within Conversion.nestingLimit root).1 hs hjk hj ?_ hhere
  cases hnode : (within depth n).isNode with
  | true => rfl
  | false =>
    rw [(of_not_isNode hnode).2.2.1] at hassigned
    cases hassigned

/-- **A plain assignment forgets the type**, until another constructs one. -/
theorem typeAt_of_reassigned (h : root.toSyntax = .ok t)
    (hs : root.outline.at? s = some (group g ps)) (hjk : j < k)
    (hj : ps[j]? = some (within depth n)) (hn : n.AssignsLocal x)
    (hplain : ∀ path, ¬ n.Constructs x path)
    (hhere : s ++ k :: c ∈ root.outline.places false)
    (hlater : ∀ d ∈ root.outline.seen false (s ++ k :: c), s ++ [j] < d →
      root.outline.assignedAt? d = some x → root.outline.constructedAt? d = none) :
    root.outline.typeAt x (s ++ k :: c) = none := by
  have hat := (at?_concat hs j).trans hj
  have hnone : root.outline.constructedAt? (s ++ [j]) = none :=
    Option.eq_none_iff_forall_ne_some.2 fun path hpath =>
      hplain path ((constructedAt?_within h hat hn).1 hpath)
  rcases mem_seen_of_assignsLocal h hs hjk hj hn hhere with hmem | ⟨-, hafter⟩
  · rw [← hnone]
    refine typeAt_of_mem_seen hmem ((assignedAt?_within h hat).2 hn) fun d hd hlt hassigned => ?_
    rw [hnone]
    exact hlater d hd hlt hassigned
  · exact foldl_retype_eq_self fun d hd => hlater d hd (hafter d hd)

/-- **An assignment `x = P.new(…)` gives the type** to what follows in its
sequence, until the local is plainly assigned. -/
theorem typeAt_of_constructs (h : root.toSyntax = .ok t)
    (hs : root.outline.at? s = some (group g ps)) (hik : i < k)
    (hi : ps[i]? = some (within depth n)) (hn : n.Constructs x path)
    (hhere : s ++ k :: c ∈ root.outline.places false)
    (hopen : (group g ps).hides false (k :: c) = false)
    (hquiet : ∀ d ∈ root.outline.seen false (s ++ k :: c), s ++ [i] < d →
      root.outline.assignedAt? d ≠ some x) :
    root.outline.typeAt x (s ++ k :: c) = some path := by
  have hat := (at?_concat hs i).trans hi
  rw [← (constructedAt?_within h hat hn.1).2 hn]
  rcases mem_seen_of_assignsLocal h hs hik hi hn.1 hhere with hmem | ⟨hhides, -⟩
  · exact typeAt_of_mem_seen hmem ((assignedAt?_within h hat).2 hn.1) fun d hd hlt hassigned =>
      absurd hassigned (hquiet d hd hlt)
  · rw [hopen] at hhides
    cases hhides

end

end ConcreteNode

namespace Outline

/-! ## What a call is reported on -/

/-- What a call on a local, reported with a path, owes to the statements of
a group around it. The group stands at `s`, and the call in or below its
part `k`, at `c` from there. -/
structure TypedWithin (o : Outline) (x : String) (path : ConstPath) (s : Address) (g : Grouping)
    (ps : List Outline) (k : Nat) (c : Address) : Prop where
  /-- A plain assignment of something else than `P.new(…)` makes the type
  unknown, unless another construction follows. -/
  reassigned : ∀ j depth n, j < k → ps[j]? = some (within depth n) → n.AssignsLocal x →
    (∀ made, ¬ n.Constructs x made) →
    (∀ d ∈ o.seen false (s ++ k :: c), s ++ [j] < d →
      o.assignedAt? d = some x → o.constructedAt? d = none) →
    path = ["Untyped"]
  /-- After `x = P.new(…)` an operator or multiple assignment leaves it `P`,
  even if `x` is a target. -/
  compound : ∀ i j depth depth' n m made, i < j → j < k →
    ps[i]? = some (within depth n) → n.Constructs x made →
    ps[j]? = some (within depth' m) → m.IsCompound →
    (group g ps).hides false (k :: c) = false →
    (∀ d ∈ o.seen false (s ++ k :: c), s ++ [i] < d → d ≠ s ++ [j] →
      o.assignedAt? d ≠ some x) →
    path = made
  /-- In a block a local that has not been plainly assigned there has the
  type it has outside, even if it is a parameter of the block. -/
  block : g = .block →
    (∀ d ∈ o.seen false (s ++ k :: c), s <+: d → o.assignedAt? d ≠ some x) →
    path = (if (group g ps).hides false (k :: c) then none else o.typeAt x s).getD ["Untyped"]

/-- How a call on a local is reported. -/
structure TypesCall (o : Outline) (here : Address) (call : ConcreteNode) (x : String)
    (r : Relation) : Prop where
  /-- It names the method. -/
  callee : r.callee = call.callee
  /-- It is on the type that the last plain assignment passed gives. -/
  path : r.path = (o.typeAt x here).getD ["Untyped"]
  /-- So the statements before it decide, in every group around it. -/
  around : ∀ s g ps k c, o.at? s = some (group g ps) → here = s ++ k :: c →
    o.TypedWithin x r.path s g ps k c

end Outline

namespace FileAnalysis

open Outline

/-- With what types an analysis reports the calls on locals. -/
structure TypesCalls (a b : FileAnalysis) (root : ConcreteNode) : Prop where
  /-- The reports are the relations found, in order. -/
  relations : b.result.relations = (a.reports root).map Prod.snd
  /-- No place is reported twice. -/
  once : ((a.reports root).map Prod.fst).Nodup
  /-- Every call on a local is reported. -/
  reported : ∀ here call x, root.outline.CallsOn here call x → call.callee ≠ "" →
    root.outline.Outside here → ¬ root.outline.TakenApart here → ∃ r, (here, r) ∈ a.reports root
  /-- It is reported on the type that plain assignments give the local. -/
  typed : ∀ here call x, root.outline.CallsOn here call x → ∀ r, (here, r) ∈ a.reports root →
    root.outline.TypesCall here call x r

/-- **The type of a local follows plain assignments and nothing else**, with
constructor inference. -/
theorem types_follow_plain_assignments {a b : FileAnalysis} {root : ConcreteNode}
    (hinfer : a.infer = .constructor) (h : a.parseSource root = (b, .ok ())) :
    a.TypesCalls b root := by
  obtain ⟨t, ht, hresult, hreports⟩ := exists_toSyntax h
  refine ⟨?_, ?_, ?_, ?_⟩
  · rw [hresult, hreports]
    exact (ConcreteNode.map_snd_reports _ _ ht).symm
  · rw [hreports]
    exact ConcreteNode.nodup_reports _ _ ht
  · intro here call x hcall
    rw [hreports]
    exact ConcreteNode.exists_report_callsOn ht hcall
  intro here call x hcall r hr
  rw [hreports] at hr
  obtain ⟨hcallee, hpath⟩ := ConcreteNode.report_callsOn ht hinfer rfl hcall hr
  refine ⟨hcallee, hpath, ?_⟩
  have hhere : here ∈ root.outline.places false := by
    obtain ⟨p, m, hmem, -⟩ := ConcreteNode.mem_reports.1 hr
    exact (List.of_mem_zip hmem).1
  rintro s g ps k c hs rfl
  rw [hpath]
  refine ⟨?_, ?_, ?_⟩
  · intro j depth n hjk hj hn hplain hlater
    rw [ConcreteNode.typeAt_of_reassigned ht hs hjk hj hn hplain hhere hlater]
    rfl
  · intro i j depth depth' n m path hij hjk hi hn hj hm hopen hquiet
    rw [ConcreteNode.typeAt_of_constructs ht hs (Nat.lt_trans hij hjk) hi hn hhere hopen]
    · rfl
    · intro d hd hlt hassigned
      by_cases hcompound : d = s ++ [j]
      · subst hcompound
        exact not_assignsLocal hm
          ((ConcreteNode.assignedAt?_within ht ((at?_concat hs j).trans hj)).1 hassigned)
      · exact hquiet d hd hlt hcompound hassigned
  · rintro rfl hquiet
    rw [typeAt_in_block hs hquiet]

/-! ## A local that is declared again -/

/-- An identifier in some field. -/
def identifier (field : Option String) (bytes : List UInt8) : ConcreteNode where
  type := "identifier"
  field := field
  bytes := bytes

/-- The local `x`, in some field. -/
def localX (field : Option String) : ConcreteNode := identifier field [120]

/-- The call `x.m`. -/
def callOnX : ConcreteNode where
  type := "call"
  children := [localX (some "receiver"), identifier (some "method") [109]]

/-- The value of `x = P.new`. -/
def newP : ConcreteNode where
  type := "call"
  field := some "right"
  children := [{ type := "constant", field := some "receiver", bytes := [80] },
    identifier (some "method") [110, 101, 119]]

/-- The value `1`. -/
def one : ConcreteNode where
  type := "integer"
  field := some "right"
  bytes := [49]

/-- An assignment of some type. -/
def assigns (type : String) (left right : ConcreteNode) : ConcreteNode where
  type := type
  children := [left, right]

/-- The program `x = P.new`, with more statements behind it. -/
def constructing (rest : List ConcreteNode) : ConcreteNode where
  type := "program"
  children := assigns "assignment" (localX (some "left")) newP :: rest

/-- The statement `x = 1`. -/
def plainly : ConcreteNode := assigns "assignment" (localX (some "left")) one

/-- The statement `x += 1`. -/
def byOperator : ConcreteNode := assigns "operator_assignment" (localX (some "left")) one

/-- The statement `x, y = 1`. -/
def amongTargets : ConcreteNode :=
  assigns "assignment"
    { type := "left_assignment_list", field := some "left",
      children := [localX none, identifier none [121]] }
    one

/-- The call `l { |x| x.m }`. -/
def asParameter : ConcreteNode where
  type := "call"
  children := [identifier (some "method") [108],
    { type := "block", field := some "block", children := [
      { type := "block_parameters", field := some "parameters", children := [localX none] },
      callOnX] }]

/-- An analysis with constructor inference. -/
def inferring : FileAnalysis := { file := "a.rb", infer := .constructor }

/-- After `x = P.new` and `x = 1` a call `x.m` is on the unknown type. -/
theorem untyped_after_plain_assignment :
    ∃ b, inferring.parseSource (constructing [plainly, callOnX]) = (b, .ok ()) ∧
      ∃ r, ([2], r) ∈ inferring.reports (constructing [plainly, callOnX]) ∧
        r.callee = "m" ∧ r.path = ["Untyped"] := by
  have hparse : inferring.parseSource (constructing [plainly, callOnX]) =
      ((inferring.parseSource (constructing [plainly, callOnX])).1, .ok ()) :=
    Prod.ext rfl (by decide +kernel)
  have htypes := types_follow_plain_assignments rfl hparse
  have htext (field : Option String) : (localX field).text = "x" := by
    change Text.Utf8.decodeLossy [120] = "x"
    decide +kernel
  have hcallee : callOnX.callee = "m" := by decide +kernel
  have hlocal : (constructing [plainly, callOnX]).outline.IsLocal ([2] ++ [0]) "x" := by
    have hread : (constructing [plainly, callOnX]).outline.at? ([2] ++ [0]) =
        some (read (localX (some "receiver"))) := rfl
    have hnames : "x" ∈ (constructing [plainly, callOnX]).outline.namesAt [] ([2] ++ [0]) := by
      decide +kernel
    simpa using (mem_namesAt hread [] "x").1 hnames
  have hcall : (constructing [plainly, callOnX]).outline.CallsOn [2] callOnX "x" :=
    ⟨998, localX (some "receiver"), rfl, rfl, rfl, htext _, hlocal⟩
  have hout : (constructing [plainly, callOnX]).outline.Outside [2] :=
    (outside_nil (constructing [plainly, callOnX]).outline).concat rfl rfl
  obtain ⟨r, hr⟩ := htypes.reported [2] callOnX "x" hcall (by simp [hcallee]) hout
    (not_takenApart_concat (a := []) rfl rfl)
  have htyped := htypes.typed [2] callOnX "x" hcall r hr
  have hplain : ∀ path, ¬ plainly.Constructs "x" path := by
    rintro path ⟨-, v, hv, hcreates⟩
    cases hv
    cases hcreates.isSend.1
  have hseen : (constructing [plainly, callOnX]).outline.seen false [2] = [[0], [1]] := by
    decide +kernel
  refine ⟨_, hparse, r, hr, htyped.callee.trans hcallee, ?_⟩
  refine (htyped.around [] _ _ 2 [] rfl rfl).reassigned 1 999 plainly (by decide) rfl
    ⟨rfl, localX (some "left"), rfl, rfl, htext _⟩ hplain ?_
  rw [List.nil_append, hseen]
  intro d hd hlt
  have hnot : ¬ [1] < [0] ∧ ¬ [1] < ([1] : Address) := by decide
  simp only [List.mem_cons, List.not_mem_nil, or_false] at hd
  rcases hd with rfl | rfl
  · exact absurd hlt hnot.1
  · exact absurd hlt hnot.2

/-- After `x = P.new` a call `x.m` is on `P` although an operator, a multiple
assignment or a block parameter has declared `x` again. -/
theorem type_outlives_redeclaration :
    (byOperator.IsCompound ∧ amongTargets.IsCompound) ∧
      ((inferring.parseSource (constructing [byOperator, callOnX])).1.result.relations.map
          (·.path) = [["P"], ["P"]] ∧
        (inferring.parseSource (constructing [amongTargets, callOnX])).1.result.relations.map
          (·.path) = [["P"], ["P"]] ∧
        (inferring.parseSource (constructing [asParameter])).1.result.relations.map
          (·.path) = [["P"], [], ["P"]]) := by
  refine ⟨⟨Or.inl rfl, Or.inr ⟨rfl, _, rfl, rfl⟩⟩, ?_, ?_, ?_⟩ <;> decide +kernel

end FileAnalysis

end ConstGraph
