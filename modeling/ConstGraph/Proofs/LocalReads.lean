import ConstGraph.Proofs.Declarations
import Mathlib.Data.List.Basic

/-!
# Which identifiers are local reads

A place in an outline is given by an address. A declaration is in force at
a place (`InForce`) if it comes up before it, every body and block around
the declaration is also around the place, and every body around the place
is also around the declaration: the two stand in the same program, method,
class or module, and what is declared in a block stays in the block.

`ConcreteNode.toSyntax_eq_build` says that this is how the conversion tells
identifiers apart: an identifier becomes a local read exactly if a
declaration of its name is in force where it stands, and a call without
receiver otherwise. Scopes are not mentioned there. That the scope in which
an identifier comes up holds the names in force is the induction over the
outline (`elaborate_eq_build`), and that those are the declared ones an
induction over the address (`mem_namesAt`).
-/

namespace ConstGraph

namespace Outline

/-! ## Addresses -/

/-- A place in an outline: the number of the part to go to at each group,
from the outside in. -/
abbrev Address := List Nat

/-- The parts of a group. -/
def parts : Outline → List Outline
  | group _ ps => ps
  | _ => []

/-- The outline at an address. -/
def at? (o : Outline) : Address → Option Outline
  | [] => some o
  | i :: rest =>
    match o.parts[i]? with
    | some part => part.at? rest
    | none => none

/-- A body stands at the address. -/
def IsBody (o : Outline) (a : Address) : Prop := ∃ ps, o.at? a = some (group .body ps)

/-- A block stands at the address. -/
def IsBlock (o : Outline) (a : Address) : Prop := ∃ ps, o.at? a = some (group .block ps)

/-- A declaration at the one address is in force at the other. -/
structure InForce (o : Outline) (declared here : Address) : Prop where
  /-- It comes up before. -/
  earlier : declared < here
  /-- The bodies and blocks around it are around the other place too. -/
  inside : ∀ a, a <+: declared → o.IsBody a ∨ o.IsBlock a → a <+: here
  /-- The bodies around the other place are around it too. -/
  shared : ∀ a, a <+: here → o.IsBody a → a <+: declared

/-- A name is declared at the address. -/
def DeclaresAt (o : Outline) (a : Address) (x : String) : Prop :=
  ∃ n, o.at? a = some (declare n) ∧ n.text = x

/-- A name is a local variable at the address: some declaration of it is in
force there. -/
def IsLocal (o : Outline) (here : Address) (x : String) : Prop :=
  ∃ a, o.DeclaresAt a x ∧ o.InForce a here

/-! ## Building by the names in force -/

end Outline

/-- The lines of a node. -/
def ConcreteNode.lines (n : ConcreteNode) : Except ConversionError LineSpan :=
  (LineSpan.ofLines n.line (n.endRow + 1)).mapError .span

namespace Grouping

/-- What becomes of the trees of a group. -/
def gather (ts : List SyntaxTree) : Grouping → Except ConversionError (List SyntaxTree)
  | node kind tag n => do return [.node kind ts (← n.lines) tag]
  | splice => .ok (ts.flatMap (·.children))
  | body => .ok ts
  | block => .ok ts

/-- The names in force at the start of a group, of those in force around
it. -/
def keep (names : List String) : Grouping → List String
  | body => []
  | _ => names

end Grouping

namespace Outline

/-- The tree of an identifier, by whether it is a local variable. -/
def readAs (isLocal : Bool) (n : ConcreteNode) (span : LineSpan) : SyntaxTree :=
  if isLocal then .node .localRead [.name n.text] span ""
  else .node .call [.absent, .name n.text] span ""

mutual

/-- The trees of an outline, where `locals` says which names are local
variables at each address. -/
def build (locals : Address → String → Bool) : Outline → Except ConversionError (List SyntaxTree)
  | leaf t => .ok [t]
  | read n => do return [readAs (locals [] n.text) n (← n.lines)]
  | declare _ => .ok []
  | tooDeep => .error .tooDeep
  | group g ps => do g.gather (← buildAll locals 0 ps)

/-- The trees of parts, the first of which has the number `i`. -/
def buildAll (locals : Address → String → Bool) (i : Nat) :
    List Outline → Except ConversionError (List SyntaxTree)
  | [] => .ok []
  | o :: os => do
    let ts ← build (fun a => locals (i :: a)) o
    let us ← buildAll locals (i + 1) os
    return ts ++ us

end

mutual

/-- The names an outline declares for what comes after it: all but those
inside a body or block. -/
def exposed : Outline → List String
  | declare n => [n.text]
  | group (.node ..) ps => exposedAll ps
  | group .splice ps => exposedAll ps
  | _ => []

/-- The names some outlines declare for what comes after them. -/
def exposedAll : List Outline → List String
  | [] => []
  | o :: os => exposed o ++ exposedAll os

end

/-- The names in force at an address, given those in force around the
outline. -/
def namesAt (names : List String) (o : Outline) : Address → List String
  | [] => names
  | i :: rest =>
    match o with
    | group g ps =>
      match ps[i]? with
      | some part => part.namesAt (g.keep names ++ exposedAll (ps.take i)) rest
      | none => []
    | _ => []

/-- A name is in force at an address, given those in force around the
outline. -/
def holdsAt (names : List String) (o : Outline) (here : Address) (x : String) : Bool :=
  (o.namesAt names here).contains x

/-! ## Scopes hold the names in force -/

/-- What holds of a group once it holds of all its parts holds of every
outline. -/
@[elab_as_elim]
theorem induction_parts {motive : Outline → Prop} (leaf : ∀ t, motive (.leaf t))
    (read : ∀ n, motive (.read n)) (declare : ∀ n, motive (.declare n)) (tooDeep : motive .tooDeep)
    (group : ∀ g ps, (∀ o ∈ ps, motive o) → motive (.group g ps)) (o : Outline) : motive o :=
  match o with
  | .leaf t => leaf t
  | .read n => read n
  | .declare n => declare n
  | .tooDeep => tooDeep
  | .group g ps => group g ps fun o _ =>
      induction_parts leaf read declare tooDeep group o

theorem holdsAt_part (names : List String) (g : Grouping) (front : List Outline) (o : Outline)
    (back : List Outline) (here : Address) :
    (group g (front ++ o :: back)).holdsAt names (front.length :: here) =
      o.holdsAt (g.keep names ++ exposedAll front) here := by
  funext x
  simp [holdsAt, namesAt]

theorem exposedAll_append (os ps : List Outline) :
    exposedAll (os ++ ps) = exposedAll os ++ exposedAll ps := by
  induction os with
  | nil => rfl
  | cons o os ih => simp only [List.cons_append, exposedAll, ih, List.append_assoc]

theorem contains_declare (s : LocalScope) (x y : String) :
    (s.declare y).contains x ↔ s.contains x ∨ x = y := by
  simp only [LocalScope.contains, LocalScope.declare, LocalScope.insert, List.any_cons,
    Bool.or_eq_true, List.contains_iff_mem]
  split
  · next hy =>
    constructor
    · exact Or.inl
    · rintro (h | rfl)
      · exact h
      · exact Or.inl hy
  · rw [List.mem_cons]
    tauto

/-- After some declarations a scope holds what it held before and what was
declared. -/
theorem contains_foldl_declare (xs : List String) (s : LocalScope) (x : String) :
    (xs.foldl LocalScope.declare s).contains x ↔ s.contains x ∨ x ∈ xs := by
  induction xs generalizing s with
  | nil => simp
  | cons y xs ih => rw [List.foldl_cons, ih, contains_declare, List.mem_cons, or_assoc]

/-- The scope holds just these names. -/
def Holds (s : LocalScope) (names : List String) : Prop := ∀ x, s.contains x ↔ x ∈ names

/-- Going through an outline in a scope builds its trees by the names in
force, and leaves the scope with what the outline declares. -/
def Follows (o : Outline) : Prop :=
  ∀ names s, Holds s names →
    o.elaborate s = (o.build (o.holdsAt names)).map
      fun ts => (ts, o.exposed.foldl LocalScope.declare s)

theorem bind_apply {α β : Type} (act : Conversion α) (f : α → Conversion β) (s : LocalScope) :
    (act >>= f) s = (act s).bind fun r => f r.1 r.2 := rfl

theorem span_apply (n : ConcreteNode) (s : LocalScope) :
    Conversion.span n s = n.lines.map fun span => (span, s) := by
  unfold Conversion.span ConcreteNode.lines
  cases LineSpan.ofLines n.line (n.endRow + 1) <;> rfl

/-- An identifier is read as a local exactly when the scope holds its name,
and leaves the scope as it found it. -/
theorem identifier_apply (n : ConcreteNode) (s : LocalScope) :
    Conversion.identifier n s = n.lines.map fun span => (readAs (s.contains n.text) n span, s) := by
  unfold Conversion.identifier Conversion.build
  rw [bind_apply]
  change (ite (s.contains n.text = true) _ _ : Conversion SyntaxTree) s = _
  cases s.contains n.text <;>
    simp only [Bool.false_eq_true, if_true, if_false, bind_apply, span_apply] <;>
    cases n.lines <;> rfl

/-- The parts of a group come up one after the other, each in the scope
the parts before it have left. -/
theorem elaborateAll_eq_buildAll {g : Grouping} {names : List String} {os : List Outline}
    (hos : ∀ o ∈ os, o.Follows) (front : List Outline) {s : LocalScope}
    (hs : Holds s (g.keep names ++ exposedAll front)) :
    elaborateAll os s =
      (buildAll ((group g (front ++ os)).holdsAt names) front.length os).map
        fun ts => (ts, (exposedAll os).foldl LocalScope.declare s) := by
  induction os generalizing front s with
  | nil => rfl
  | cons o os ih =>
    have ho := hos o List.mem_cons_self _ _ hs
    have hs' : Holds (o.exposed.foldl LocalScope.declare s)
        (g.keep names ++ exposedAll (front ++ [o])) := by
      intro x
      rw [contains_foldl_declare, hs x, exposedAll_append]
      simp [exposedAll, or_assoc]
    have hnext := ih (fun o ho => hos o (List.mem_cons_of_mem _ ho)) (front ++ [o]) hs'
    rw [List.append_assoc, List.singleton_append, List.length_append, List.length_singleton]
      at hnext
    rw [elaborateAll, buildAll]
    simp only [holdsAt_part]
    rw [bind_apply, ho]
    cases o.build (o.holdsAt (g.keep names ++ exposedAll front)) with
    | error e => rfl
    | ok ts =>
      change Except.bind (elaborateAll os (o.exposed.foldl LocalScope.declare s)) _ = _
      rw [hnext]
      cases buildAll ((group g (front ++ o :: os)).holdsAt names) (front.length + 1) os with
      | error e => rfl
      | ok us =>
        rw [exposedAll, List.foldl_append]
        rfl

/-- **Following an outline builds its trees by the names in force**, if the
scope it starts in holds just the names in force around it. -/
theorem elaborate_eq_build (o : Outline) : o.Follows := by
  induction o using induction_parts with
  | leaf t => exact fun names s hs => rfl
  | read n =>
    intro names s hs
    have hlocal : s.contains n.text = names.contains n.text := by
      rw [Bool.eq_iff_iff, hs, List.contains_iff_mem]
    rw [elaborate, bind_apply, identifier_apply, hlocal, build, holdsAt, namesAt]
    cases n.lines <;> rfl
  | declare n => exact fun names s hs => rfl
  | tooDeep => exact fun names s hs => rfl
  | group g ps ih =>
    intro names s hs
    have hparts : ∀ t : LocalScope, Holds t (g.keep names) →
        elaborateAll ps t = (buildAll ((group g ps).holdsAt names) 0 ps).map
          fun ts => (ts, (exposedAll ps).foldl LocalScope.declare t) := by
      intro t ht
      refine elaborateAll_eq_buildAll ih [] ?_
      simpa [exposedAll] using ht
    rw [build]
    cases g with
    | node kind tag n =>
      rw [elaborate, bind_apply, hparts s hs, exposed]
      cases buildAll ((group (.node kind tag n) ps).holdsAt names) 0 ps with
      | error e => rfl
      | ok ts =>
        simp only [Except.map, Except.bind, bind_apply, span_apply, Grouping.gather]
        cases n.lines <;> rfl
    | splice =>
      rw [elaborate, bind_apply, hparts s hs]
      cases buildAll ((group .splice ps).holdsAt names) 0 ps <;> rfl
    | body =>
      have hempty : Holds .empty (Grouping.body.keep names) := by
        intro x
        simp [LocalScope.contains, LocalScope.empty, Grouping.keep]
      rw [elaborate, Conversion.inFresh, hparts .empty hempty]
      cases buildAll ((group .body ps).holdsAt names) 0 ps <;> rfl
    | block =>
      have hchild : Holds s.child (Grouping.block.keep names) := by
        intro x
        refine Iff.trans ?_ (hs x)
        simp [LocalScope.contains, LocalScope.child]
      rw [elaborate, Conversion.inChild, hparts s.child hchild]
      cases buildAll ((group .block ps).holdsAt names) 0 ps <;> rfl

/-! ## The names in force are the declared ones -/

/-- No body stands around the address. -/
def Bodiless (o : Outline) (a : Address) : Prop := ∀ b, b <+: a → ¬ o.IsBody b

/-- Neither a body nor a block stands around the address. -/
def Exposes (o : Outline) (a : Address) : Prop := ∀ b, b <+: a → ¬ (o.IsBody b ∨ o.IsBlock b)

section

variable {g : Grouping} {ps : List Outline} {i : Nat} {part : Outline}

theorem at?_cons (hi : ps[i]? = some part) (a : Address) :
    (group g ps).at? (i :: a) = part.at? a := by
  simp [at?, parts, hi]

theorem isBody_nil : (group g ps).IsBody [] ↔ g = .body := by
  simp [IsBody, at?]

theorem isBlock_nil : (group g ps).IsBlock [] ↔ g = .block := by
  simp [IsBlock, at?]

theorem isBody_cons (hi : ps[i]? = some part) (a : Address) :
    (group g ps).IsBody (i :: a) ↔ part.IsBody a := by
  simp only [IsBody, at?_cons hi]

theorem isBlock_cons (hi : ps[i]? = some part) (a : Address) :
    (group g ps).IsBlock (i :: a) ↔ part.IsBlock a := by
  simp only [IsBlock, at?_cons hi]

/-- What holds along an address holds at its start and along the rest. -/
theorem forall_prefix_cons {motive : Address → Prop} {a : Address} :
    (∀ b, b <+: i :: a → motive b) ↔ motive [] ∧ ∀ b, b <+: a → motive (i :: b) := by
  constructor
  · intro h
    exact ⟨h [] List.nil_prefix, fun b hb => h _ (List.cons_prefix_cons.mpr ⟨rfl, hb⟩)⟩
  · rintro ⟨hnil, hcons⟩ b hb
    obtain rfl | ⟨c, rfl, hc⟩ := List.prefix_cons_iff.mp hb
    · exact hnil
    · exact hcons c hc

theorem bodiless_cons (hi : ps[i]? = some part) (a : Address) :
    (group g ps).Bodiless (i :: a) ↔ g ≠ .body ∧ part.Bodiless a := by
  simp only [Bodiless, forall_prefix_cons, isBody_nil, isBody_cons hi, ne_eq]

theorem exposes_cons (hi : ps[i]? = some part) (a : Address) :
    (group g ps).Exposes (i :: a) ↔ ¬ (g = .body ∨ g = .block) ∧ part.Exposes a := by
  simp only [Exposes, forall_prefix_cons, isBody_nil, isBlock_nil, isBody_cons hi,
    isBlock_cons hi]

theorem declaresAt_group {a : Address} {x : String} :
    (group g ps).DeclaresAt a x ↔
      ∃ i part rest, ps[i]? = some part ∧ a = i :: rest ∧ part.DeclaresAt rest x := by
  constructor
  · rintro ⟨n, hn, rfl⟩
    match a with
    | [] => simp [at?] at hn
    | i :: rest =>
      cases hi : ps[i]? with
      | none => simp [at?, parts, hi] at hn
      | some part =>
        rw [at?_cons hi] at hn
        exact ⟨i, part, rest, hi, rfl, n, hn, rfl⟩
  · rintro ⟨i, part, rest, hi, rfl, n, hn, rfl⟩
    exact ⟨n, (at?_cons hi rest).trans hn, rfl⟩

/-- Within one part of a group, what is in force is in force in the part. -/
theorem inForce_part (hi : ps[i]? = some part) {a b : Address} :
    (group g ps).InForce (i :: a) (i :: b) ↔ part.InForce a b := by
  have hinside : (∀ c, c <+: i :: a → (group g ps).IsBody c ∨ (group g ps).IsBlock c →
      c <+: i :: b) ↔ ∀ c, c <+: a → part.IsBody c ∨ part.IsBlock c → c <+: b := by
    simp [forall_prefix_cons, isBody_cons hi, isBlock_cons hi]
  have hshared : (∀ c, c <+: i :: b → (group g ps).IsBody c → c <+: i :: a) ↔
      ∀ c, c <+: b → part.IsBody c → c <+: a := by
    simp [forall_prefix_cons, isBody_cons hi]
  constructor
  · rintro ⟨hlt, hin, hsh⟩
    exact ⟨by simpa [List.cons_lt_cons_iff] using hlt, hinside.mp hin, hshared.mp hsh⟩
  · rintro ⟨hlt, hin, hsh⟩
    exact ⟨by simpa [List.cons_lt_cons_iff] using hlt, hinside.mpr hin, hshared.mpr hsh⟩

/-- From one part of a group to a later one, a declaration is in force if
no scope stands around it and no body around the other place. -/
theorem inForce_later {j : Nat} {earlier : Outline} (hj : ps[j]? = some earlier)
    (hi : ps[i]? = some part) (hji : j < i) {a b : Address} :
    (group g ps).InForce (j :: a) (i :: b) ↔ earlier.Exposes a ∧ part.Bodiless b := by
  have hne : j ≠ i := by omega
  have hinside : (∀ c, c <+: j :: a → (group g ps).IsBody c ∨ (group g ps).IsBlock c →
      c <+: i :: b) ↔ earlier.Exposes a := by
    simp [forall_prefix_cons, isBody_cons hj, isBlock_cons hj, hne, Exposes]
  have hshared : (∀ c, c <+: i :: b → (group g ps).IsBody c → c <+: j :: a) ↔
      part.Bodiless b := by
    simp [forall_prefix_cons, isBody_cons hi, hne.symm, Bodiless]
  constructor
  · rintro ⟨-, hin, hsh⟩
    exact ⟨hinside.mp hin, hshared.mp hsh⟩
  · rintro ⟨hin, hsh⟩
    exact ⟨List.cons_lt_cons_iff.mpr (.inl hji), hinside.mpr hin, hshared.mpr hsh⟩

end

theorem exposedAll_eq_flatMap (os : List Outline) : exposedAll os = os.flatMap exposed := by
  induction os with
  | nil => rfl
  | cons o os ih => rw [exposedAll, ih, List.flatMap_cons]

theorem declaresAt_of_parts_eq_nil {o : Outline} (ho : o.parts = []) {a : Address} {x : String} :
    o.DeclaresAt a x ↔ a = [] ∧ ∃ n, o = declare n ∧ n.text = x := by
  cases a with
  | nil => simp [DeclaresAt, at?]
  | cons i rest => simp [DeclaresAt, at?, ho]

/-- The names an outline exposes are those declared outside every body and
block of it. -/
theorem mem_exposed (o : Outline) (x : String) :
    x ∈ o.exposed ↔ ∃ a, o.DeclaresAt a x ∧ o.Exposes a := by
  induction o using induction_parts with
  | leaf t => simp [exposed, declaresAt_of_parts_eq_nil (o := .leaf t) rfl]
  | read n => simp [exposed, declaresAt_of_parts_eq_nil (o := .read n) rfl]
  | declare n =>
    simp [exposed, declaresAt_of_parts_eq_nil (o := .declare n) rfl, Exposes, IsBody, IsBlock, at?,
      eq_comm]
  | tooDeep => simp [exposed, declaresAt_of_parts_eq_nil (o := .tooDeep) rfl]
  | group g ps ih =>
    by_cases hg : g = .body ∨ g = .block
    · have hnil : (group g ps).exposed = [] := by
        obtain rfl | rfl := hg <;> rfl
      refine iff_of_false (by simp [hnil]) ?_
      rintro ⟨a, -, ha⟩
      refine ha [] List.nil_prefix ?_
      rwa [isBody_nil, isBlock_nil]
    · have hall : (group g ps).exposed = ps.flatMap exposed := by
        rw [← exposedAll_eq_flatMap]
        cases g with
        | node kind tag n => rfl
        | splice => rfl
        | body => exact absurd (.inl rfl) hg
        | block => exact absurd (.inr rfl) hg
      rw [hall, List.mem_flatMap]
      constructor
      · rintro ⟨part, hpart, hx⟩
        obtain ⟨a, hdecl, hout⟩ := (ih part hpart).mp hx
        obtain ⟨i, hi⟩ := List.mem_iff_getElem?.mp hpart
        exact ⟨i :: a, declaresAt_group.mpr ⟨i, part, a, hi, rfl, hdecl⟩,
          (exposes_cons hi a).mpr ⟨hg, hout⟩⟩
      · rintro ⟨a, hdecl, hout⟩
        obtain ⟨i, part, rest, hi, rfl, hrest⟩ := declaresAt_group.mp hdecl
        have hpart := List.mem_of_getElem? hi
        exact ⟨part, hpart, (ih part hpart).mpr ⟨rest, hrest, ((exposes_cons hi rest).mp hout).2⟩⟩

theorem mem_exposedAll_take {ps : List Outline} {i : Nat} {x : String} :
    x ∈ exposedAll (ps.take i) ↔ ∃ j part, j < i ∧ ps[j]? = some part ∧ x ∈ part.exposed := by
  rw [exposedAll_eq_flatMap, List.mem_flatMap]
  constructor
  · rintro ⟨part, hpart, hx⟩
    obtain ⟨j, hj⟩ := List.mem_iff_getElem?.mp hpart
    rw [List.getElem?_take] at hj
    split at hj
    · next hji => exact ⟨j, part, hji, hj, hx⟩
    · cases hj
  · rintro ⟨j, part, hji, hj, hx⟩
    refine ⟨part, List.mem_iff_getElem?.mpr ⟨j, ?_⟩, hx⟩
    rw [List.getElem?_take, if_pos hji, hj]

theorem mem_keep {g : Grouping} {names : List String} {x : String} :
    x ∈ g.keep names ↔ g ≠ .body ∧ x ∈ names := by
  cases g <;> simp [Grouping.keep]

/-- In a group, a name is a local at a place in some part if it is one
inside the part, or if an earlier part exposes it and no body stands around
the place. -/
theorem isLocal_part {g : Grouping} {ps : List Outline} {i : Nat} {part : Outline}
    (hi : ps[i]? = some part) {here : Address} {x : String} :
    (group g ps).IsLocal (i :: here) x ↔
      (x ∈ exposedAll (ps.take i) ∧ part.Bodiless here) ∨ part.IsLocal here x := by
  rw [mem_exposedAll_take]
  constructor
  · rintro ⟨a, hdecl, hforce⟩
    obtain ⟨j, earlier, rest, hj, rfl, hrest⟩ := declaresAt_group.mp hdecl
    obtain hji | ⟨rfl, -⟩ := List.cons_lt_cons_iff.mp hforce.earlier
    · obtain ⟨hout, hbody⟩ := (inForce_later hj hi hji).mp hforce
      exact .inl ⟨⟨j, earlier, hji, hj, (mem_exposed _ _).mpr ⟨rest, hrest, hout⟩⟩, hbody⟩
    · obtain rfl : earlier = part := Option.some.inj (hj.symm.trans hi)
      exact .inr ⟨rest, hrest, (inForce_part hi).mp hforce⟩
  · rintro (⟨⟨j, earlier, hji, hj, hx⟩, hbody⟩ | ⟨a, hdecl, hforce⟩)
    · obtain ⟨a, hdecl, hout⟩ := (mem_exposed _ _).mp hx
      exact ⟨j :: a, declaresAt_group.mpr ⟨j, earlier, a, hj, rfl, hdecl⟩,
        (inForce_later hj hi hji).mpr ⟨hout, hbody⟩⟩
    · exact ⟨i :: a, declaresAt_group.mpr ⟨i, part, a, hi, rfl, hdecl⟩,
        (inForce_part hi).mpr hforce⟩

/-- **Where an identifier is read, the names in force are those declared**,
and those in force around the outline if no body stands in between. -/
theorem mem_namesAt {o : Outline} {here : Address} {n : ConcreteNode}
    (hread : o.at? here = some (read n)) (names : List String) (x : String) :
    x ∈ o.namesAt names here ↔ (x ∈ names ∧ o.Bodiless here) ∨ o.IsLocal here x := by
  induction here generalizing o names with
  | nil =>
    obtain rfl : o = read n := by simpa [at?] using hread
    have hbody : (read n).Bodiless [] := by
      simp [Bodiless, IsBody, at?]
    have hlocal : ¬ (read n).IsLocal [] x := by
      rintro ⟨a, -, hforce⟩
      exact List.not_lt_nil a hforce.earlier
    simp [namesAt, hbody, hlocal]
  | cons i here ih =>
    cases o with
    | group g ps =>
      cases hi : ps[i]? with
      | none => simp [at?, parts, hi] at hread
      | some part =>
        rw [at?_cons hi] at hread
        have hnames : (group g ps).namesAt names (i :: here) =
            part.namesAt (g.keep names ++ exposedAll (ps.take i)) here := by
          simp [namesAt, hi]
        rw [hnames, ih hread, List.mem_append, mem_keep, isLocal_part hi, bodiless_cons hi]
        tauto
    | _ => simp [at?, parts] at hread

mutual

/-- The trees of an outline depend on which names are locals only where an
identifier is read. -/
theorem build_congr {f g : Address → String → Bool} {o : Outline}
    (h : ∀ here n, o.at? here = some (read n) → f here n.text = g here n.text) :
    o.build f = o.build g := by
  match o with
  | leaf t => rfl
  | read n => rw [build, build, h [] n rfl]
  | declare n => rfl
  | tooDeep => rfl
  | group gr ps =>
    have hparts : buildAll f 0 ps = buildAll g 0 ps := by
      refine buildAll_congr fun j part hj here n hn => ?_
      rw [Nat.zero_add]
      exact h (j :: here) n ((at?_cons hj here).trans hn)
    rw [build, build, hparts]

theorem buildAll_congr {f g : Address → String → Bool} {i : Nat} {ps : List Outline}
    (h : ∀ j part, ps[j]? = some part → ∀ here n, part.at? here = some (read n) →
      f ((i + j) :: here) n.text = g ((i + j) :: here) n.text) :
    buildAll f i ps = buildAll g i ps := by
  match ps with
  | [] => rfl
  | o :: os =>
    have hfirst : o.build (fun here => f (i :: here)) = o.build fun here => g (i :: here) :=
      build_congr (h 0 o rfl)
    have hrest : buildAll f (i + 1) os = buildAll g (i + 1) os := by
      refine buildAll_congr fun j part hj here n hn => ?_
      rw [Nat.add_assoc, Nat.add_comm 1 j]
      exact h (j + 1) part hj here n hn
    rw [buildAll, buildAll, hfirst, hrest]

end

end Outline

/-- The outline of a program. -/
def ConcreteNode.outline (root : ConcreteNode) : Outline :=
  .within Conversion.nestingLimit root

section

open scoped Classical

/-- **An identifier becomes a local read exactly where a declaration of its
name is in force**, and a call without receiver elsewhere: the conversion
of a program builds the trees of its outline by that, and what the outline
declares at a node is what the node `Declares`. -/
theorem ConcreteNode.toSyntax_eq_build (root : ConcreteNode) :
    ((root.toSyntax.map fun t => [t]) =
      root.outline.build fun here x => decide (root.outline.IsLocal here x)) ∧
    ∀ depth n, Outline.Declare (Outline.own depth n) n.Declares := by
  refine ⟨?_, Outline.declare_own⟩
  have hempty : Outline.Holds .empty [] := by
    intro x
    simp [LocalScope.contains, LocalScope.empty]
  have hlocal : root.outline.build (root.outline.holdsAt []) =
      root.outline.build fun here x => decide (root.outline.IsLocal here x) := by
    refine Outline.build_congr fun here n hread => ?_
    rw [Bool.eq_iff_iff, Outline.holdsAt, List.contains_iff_mem, Outline.mem_namesAt hread]
    simp
  calc (root.toSyntax.map fun t => [t])
      = (root.outline.elaborate .empty).map Prod.fst := by
        rw [ConcreteNode.outline, Outline.elaborate_within, Outline.bind_apply,
          ConcreteNode.toSyntax]
        cases Conversion.convert Conversion.nestingLimit root .empty <;> rfl
    _ = root.outline.build (root.outline.holdsAt []) := by
        rw [root.outline.elaborate_eq_build [] .empty hempty]
        cases root.outline.build (root.outline.holdsAt []) <;> rfl
    _ = root.outline.build fun here x => decide (root.outline.IsLocal here x) := hlocal

end

-- In `x = x`, and `y` after it, the second `x` is a local read and `y` is a call.
example : ConcreteNode.toSyntax { type := "program", children := [
      { type := "assignment", children := [
        { type := "identifier", field := some "left", bytes := [120] },
        { type := "identifier", field := some "right", bytes := [120] }] },
      { type := "identifier", bytes := [121] }] } =
    .ok (.node .other [
      .node .localAssign [.name "x", .node .localRead [.name "x"] ⟨1, 1, by decide⟩ ""]
        ⟨1, 1, by decide⟩ "",
      .node .call [.absent, .name "y"] ⟨1, 1, by decide⟩ ""] ⟨1, 1, by decide⟩ "program") := by
  rfl

end ConstGraph
