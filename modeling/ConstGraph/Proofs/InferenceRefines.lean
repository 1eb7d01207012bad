import ConstGraph.Proofs.Attribution

/-!
# What an inference can change

Two walks of one tree from one context, one with an inference and one
without, differ in the types of locals and in nothing else. The invariant
is that the walk without inference knows no more (`WalkContext.Below`): it
forgets a local wherever one is assigned, and the other walk forgets it
there too unless it learns a type. So the two agree at every site on
everything but the type of a local, and where they disagree on that the
plain walk knows none. `inference_only_refines` says this of the whole
lists of definitions and relations.
-/

namespace ConstGraph

/-! ## Binding a type -/

namespace TypeScope

theorem lookup_cons_eq_ite (y z : String) (u : InferredType)
    (entries : List (String × InferredType)) :
    ((z, u) :: entries).lookup y = if y = z then some u else entries.lookup y := by
  rw [List.lookup_cons]
  by_cases hy : y = z
  · simp [hy]
  · rw [beq_false_of_ne hy, if_neg hy]

theorem lookup_assign (x y : String) (type : InferredType)
    (entries : List (String × InferredType)) :
    (assign x type entries).lookup y = if y = x then some type else entries.lookup y := by
  induction entries with
  | nil => exact lookup_cons_eq_ite y x type []
  | cons e entries ih =>
    obtain ⟨z, u⟩ := e
    rw [assign]
    by_cases hz : x = z
    · subst hz
      rw [if_pos rfl, lookup_cons_eq_ite, lookup_cons_eq_ite]
      split <;> rfl
    · rw [if_neg hz, lookup_cons_eq_ite, lookup_cons_eq_ite, ih]
      by_cases hy : y = z
      · simp [hy, Ne.symm hz]
      · simp [hy]

theorem lookup_filter_ne (x y : String) (entries : List (String × InferredType)) :
    (entries.filter (·.1 != x)).lookup y = if y = x then none else entries.lookup y := by
  induction entries with
  | nil => simp
  | cons e entries ih =>
    obtain ⟨z, u⟩ := e
    by_cases hz : z = x
    · subst hz
      rw [List.filter_cons_of_neg (by simp), ih, lookup_cons_eq_ite]
      split <;> rfl
    · rw [List.filter_cons_of_pos (by simpa using hz), lookup_cons_eq_ite, lookup_cons_eq_ite, ih]
      by_cases hy : y = z
      · simp [hy, hz]
      · simp [hy]

/-- **Binding a name changes that name only**: a known type is its entry,
an unknown one leaves it without. -/
theorem get?_bind (s : TypeScope) (x y : String) (type : InferredType) :
    (s.bind x type).get? y =
      if y = x then (if type.known then some type else none) else s.get? y := by
  unfold bind
  split
  · exact lookup_assign x y type s.entries
  · exact lookup_filter_ne x y s.entries

/-- What the one scope knows, the other knows alike. -/
def Below (s u : TypeScope) : Prop := ∀ x type, s.get? x = some type → u.get? x = some type

theorem Below.refl (s : TypeScope) : s.Below s := fun _ _ h => h

/-- Where the types of a name differ, the lower scope does not know it. -/
theorem Below.lookup {s u : TypeScope} (h : s.Below u) (x : String) :
    u.lookup x = s.lookup x ∨ s.lookup x = .unknown := by
  unfold TypeScope.lookup
  cases hx : s.get? x with
  | none => exact Or.inr rfl
  | some type => exact Or.inl (by rw [h x type hx])

end TypeScope

/-! ## Two contexts -/

namespace WalkContext

/-- **What a sibling does to the entry of a name.** Only an assignment to
the name matters: it leaves the inferred type if that is known, and
otherwise nothing. -/
theorem get?_after (infer : Inference) (t : SyntaxTree) (ctx : WalkContext) (y : String) :
    (ctx.after infer t).types.get? y =
      if assigned? t = some y then (infer t ctx).filter (·.known) else ctx.types.get? y := by
  unfold after
  cases assigned? t with
  | none => simp
  | some x =>
    simp only [Option.some.injEq, eq_comm (a := x)]
    cases infer t ctx with
    | some type =>
      rw [TypeScope.get?_bind]
      by_cases hy : y = x
      · cases hknown : type.known <;> simp [hy, hknown, Option.filter]
      · simp [hy]
    | none =>
      by_cases hy : y = x
      · subst hy
        cases hx : ctx.types.contains y with
        | true => simp [TypeScope.get?_bind, InferredType.unknown]
        | false =>
          have hnone : ctx.types.get? y = none := by simpa [TypeScope.contains] using hx
          simp [hnone]
      · rw [if_neg hy]
        dsimp only
        split
        · rw [TypeScope.get?_bind, if_neg hy]
        · rfl

/-- The contexts agree, but the second may know types that the first does
not. -/
structure Below (c d : WalkContext) : Prop where
  /-- They stand in the same definition. -/
  path : c.path = d.path
  /-- They stand in the same method. -/
  inMethod : c.inMethod = d.inMethod
  /-- They stand in the same call. -/
  callee : c.callee = d.callee
  /-- What the first knows of a local, the second knows alike. -/
  types : c.types.Below d.types

namespace Below

variable {c d : WalkContext}

theorem refl (c : WalkContext) : c.Below c := ⟨rfl, rfl, rfl, TypeScope.Below.refl _⟩

/-- **A sibling keeps the order.** The walk without inference forgets what
the sibling assigns, so nothing is asked of the other walk there. -/
theorem after (h : c.Below d) (infer : Inference) (t : SyntaxTree) :
    (c.after .none t).Below (d.after infer t) := by
  obtain ⟨types, hc⟩ := c.exists_after_eq .none t
  obtain ⟨types', hd⟩ := d.exists_after_eq infer t
  refine ⟨by rw [hc, hd]; exact h.path, by rw [hc, hd]; exact h.inMethod,
    by rw [hc, hd]; exact h.callee, fun x type hx => ?_⟩
  rw [get?_after] at hx ⊢
  split at hx
  · cases hx
  · next hne =>
    rw [if_neg hne]
    exact h.types x type hx

theorem afterAll (h : c.Below d) (infer : Inference) (ts : List SyntaxTree) :
    (c.afterAll .none ts).Below (d.afterAll infer ts) := by
  induction ts generalizing c d with
  | nil => exact h
  | cons t ts ih => exact ih (h.after infer t)

/-- **Going into a node keeps the order**: both walks drop the types of
locals at the same nodes. -/
theorem enter (h : c.Below d) (s : Step) : (s.enter c).Below (s.enter d) where
  path := by simp only [Step.enter, h.path]
  inMethod := by simp only [Step.enter, h.inMethod]
  callee := by simp only [Step.enter, h.callee]
  types := by
    simp only [Step.enter]
    split
    · exact TypeScope.Below.refl _
    · exact h.types

end Below

end WalkContext

/-! ## Two walks -/

namespace Site

/-- Two relations found at a site are the same, apart from the type of a
local that the first does not know. -/
structure Refined (p : Site) (plain r : Relation) : Prop where
  /-- They have the same caller. -/
  caller : r.caller = plain.caller
  /-- They stand in the same method. -/
  inMethod : r.inMethod = plain.inMethod
  /-- They call the same method. -/
  callee : r.callee = plain.callee
  /-- They stand in the same file. -/
  file : r.file = plain.file
  /-- They stand on the same line. -/
  line : r.line = plain.line
  /-- Their paths differ only in a call on a local, and there the first has
  the path of an unknown type. -/
  path : r.path = plain.path ∨
    (∃ x callee, p.here.mention? = some (.onLocal x callee)) ∧ plain.path = ["Untyped"]

end Site

namespace Walker

variable (w : Walker) (ctx : WalkContext)

/-- The same walk without any inference. -/
def plain : Walker := { w with infer := .none }

theorem below_within (above : List Step) :
    (w.plain.within ctx above).Below (w.within ctx above) := by
  induction above with
  | nil => exact .refl ctx
  | cons s above ih => exact (ih.afterAll w.infer s.elders).enter s

/-- **The walk without inference knows no more at any site.** -/
theorem below_contextAt (p : Site) : (w.plain.contextAt ctx p).Below (w.contextAt ctx p) :=
  (w.below_within ctx p.above).afterAll w.infer p.here.elders

variable {w ctx}

theorem refined_relationOf {p : Site} {m : Mention} (hm : p.here.mention? = some m) :
    p.Refined (w.plain.relationOf (w.plain.contextAt ctx p) p.here m)
      (w.relationOf (w.contextAt ctx p) p.here m) := by
  have hbelow := w.below_contextAt ctx p
  refine ⟨hbelow.path.symm, hbelow.inMethod.symm, ?_, rfl, rfl, ?_⟩
  · simp only [relationOf, hbelow.callee]
  · cases m with
    | constant => exact Or.inl rfl
    | onSelf callee => exact Or.inl hbelow.path.symm
    | onResult callee => exact Or.inl rfl
    | onLocal x callee =>
      cases x with
      | none => exact Or.inl rfl
      | some x =>
        -- only here do the types of locals show
        rcases hbelow.types.lookup x with hsame | hunknown
        · exact Or.inl (congrArg InferredType.path hsame)
        · exact Or.inr ⟨⟨_, _, hm⟩, congrArg InferredType.path hunknown⟩

variable (w ctx)

/-- **An inference only refines.** With it and without it a walk finds the
same definitions, and as many relations at the same sites. One by one
these agree on caller, method, callee, file and line; their paths differ
only for calls on a local, where the walk without inference has the path
of an unknown type. -/
theorem inference_only_refines (t : SyntaxTree) :
    (w.walk t ctx).definitions = (w.plain.walk t ctx).definitions ∧
      (w.walk t ctx).relations.length = (w.plain.walk t ctx).relations.length ∧
      List.Forall₂ (fun p rs => p.Refined rs.1 rs.2) (t.sites.filter (·.here.isMention))
        ((w.plain.walk t ctx).relations.zip (w.walk t ctx).relations) := by
  -- both lists are read off the mentions of the tree, which are the same for both
  let both (p : Site) : Option (Relation × Relation) :=
    p.here.mention?.map fun m =>
      (w.plain.relationOf (w.plain.contextAt ctx p) p.here m,
        w.relationOf (w.contextAt ctx p) p.here m)
  have hplain : (w.plain.walk t ctx).relations = (t.sites.filterMap both).map Prod.fst := by
    rw [relations_walk, List.map_filterMap]
    exact List.filterMap_congr fun p _ => by simp [both, Function.comp_def]
  have hinferred : (w.walk t ctx).relations = (t.sites.filterMap both).map Prod.snd := by
    rw [relations_walk, List.map_filterMap]
    exact List.filterMap_congr fun p _ => by simp [both, Function.comp_def]
  refine ⟨?_, by rw [hplain, hinferred, List.length_map, List.length_map], ?_⟩
  · rw [definitions_walk, definitions_walk]
    refine List.filterMap_congr fun p _ => ?_
    have hpath := (w.below_contextAt ctx p).path
    unfold definitionOf
    rw [hpath]
    rfl
  · rw [hplain, hinferred, List.zip_map']
    change List.Forall₂ _ _ ((t.sites.filterMap both).map id)
    rw [List.map_id]
    refine forall₂_filter_filterMap (by simp [both, Step.isMention]) fun p _ rs hrs => ?_
    obtain ⟨m, hm, rfl⟩ := Option.map_eq_some_iff.1 hrs
    exact refined_relationOf hm

end Walker

end ConstGraph
