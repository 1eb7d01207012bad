import ConstGraph.Proofs.Outline
import Mathlib.Tactic.Common

/-!
# What declares a name

Which names a node declares is said here once, in terms of the concrete
tree alone (`ConcreteNode.Declares`): parameters, assignments to an
identifier, the identifiers among the targets of a multiple assignment,
assignments through an operator, the name of a rescued error and the names
in the pattern of a loop.

An outline declares that and nothing else: `declare_own` looks at what one
node contributes to it, with the nodes below left out.
-/

namespace ConstGraph

namespace ConcreteNode

/-- The identifiers of a pattern: the node itself or those below it. -/
inductive Binds : ConcreteNode → ConcreteNode → Prop where
  | itself {n : ConcreteNode} : n.construct = .identifier → Binds n n
  | inner {n c m : ConcreteNode} :
      n.construct ≠ .identifier → c ∈ n.phrases → Binds c m → Binds n m

/-- The identifiers on the left of a multiple assignment, also behind a
splat and inside parentheses. -/
inductive Assigns : ConcreteNode → ConcreteNode → Prop where
  | identifier {n c : ConcreteNode} : c ∈ n.phrases → c.construct = .identifier → Assigns n c
  | nested {n c m : ConcreteNode} : c ∈ n.phrases →
      c.type = "rest_assignment" ∨ c.type = "destructured_left_assignment" →
      Assigns c m → Assigns n m

/-- A parameter stands for itself, for the identifiers it is taken apart
into, or for its name. -/
def Introduces (p m : ConcreteNode) : Prop :=
  if p.construct = .identifier then m = p
  else if p.type = "destructured_parameter" then p.Binds m
  else p.child? "name" = some m

/-- The left side of an assignment is an identifier, or a list of targets
with the identifier among them. -/
def IsAssigned (left m : ConcreteNode) : Prop :=
  (left.type = "identifier" ∧ m = left) ∨ (left.type = "left_assignment_list" ∧ left.Assigns m)

/-- A node declares the name of another. -/
def Declares (n m : ConcreteNode) : Prop :=
  match n.construct with
  | .parameters => ∃ p ∈ n.phrases, p.Introduces m
  | .assignment => ∃ left, n.child? "left" = some left ∧ left.IsAssigned m
  | .operatorAssignment => n.child? "left" = some m ∧ m.construct = .identifier
  | .rescued => n.Binds m
  | .loop => ∃ pattern, n.child? "pattern" = some pattern ∧ pattern.Binds m
  | _ => False

end ConcreteNode

namespace Outline

/-! ## Leaves -/

mutual

/-- The outlines without parts in an outline, in order. -/
def leaves : Outline → List Outline
  | group _ ps => leavesAll ps
  | o => [o]

/-- The outlines without parts in some outlines. -/
def leavesAll : List Outline → List Outline
  | [] => []
  | o :: os => leaves o ++ leavesAll os

end

theorem leavesAll_append (os ps : List Outline) :
    leavesAll (os ++ ps) = leavesAll os ++ leavesAll ps := by
  induction os with
  | nil => rfl
  | cons o os ih => simp only [List.cons_append, leavesAll, ih, List.append_assoc]

theorem leavesAll_flatMap (f : ConcreteNode → List Outline) (ns : List ConcreteNode) :
    leavesAll (ns.flatMap f) = ns.flatMap fun n => leavesAll (f n) := by
  induction ns with
  | nil => rfl
  | cons n ns ih => rw [List.flatMap_cons, leavesAll_append, ih, List.flatMap_cons]

theorem leavesAll_singleton (o : Outline) : leavesAll [o] = o.leaves := by
  simp [leavesAll]

/-- The outline of a node that is left out. -/
def blank (_ : ConcreteNode) : Outline := leaf .absent

/-- What a node contributes to an outline apart from the nodes below it. -/
def own (depth : Nat) (n : ConcreteNode) : List Outline := (ofNode blank depth n).leaves

/-! ## Declaring just what is meant -/

/-- Some leaves declare just what they are meant to, unless they end where
the nesting is too deep. -/
structure Declare (os : List Outline) (meant : ConcreteNode → Prop) : Prop where
  /-- Nothing else is declared. -/
  sound : ∀ {m}, declare m ∈ os → meant m
  /-- All of it is declared. -/
  complete : tooDeep ∉ os → ∀ {m}, meant m → declare m ∈ os

namespace Declare

variable {os ps : List Outline} {p q : ConcreteNode → Prop}

theorem congr (h : Declare os p) (hpq : ∀ m, p m ↔ q m) : Declare os q :=
  ⟨fun hm => (hpq _).mp (h.sound hm), fun hdeep _ hm => h.complete hdeep ((hpq _).mpr hm)⟩

theorem nothing (h : ∀ m, declare m ∉ os) (hp : ∀ m, ¬ p m) : Declare os p :=
  ⟨fun hm => absurd hm (h _), fun _ _ hm => absurd hm (hp _)⟩

theorem one (n : ConcreteNode) : Declare [declare n] (· = n) := by
  constructor <;> simp

theorem cut : Declare [tooDeep] p := by
  constructor <;> simp

theorem append (ho : Declare os p) (hp : Declare ps q) :
    Declare (os ++ ps) fun m => p m ∨ q m := by
  refine ⟨fun hm => ?_, fun hdeep m hm => ?_⟩
  · exact (List.mem_append.mp hm).imp ho.sound hp.sound
  · rw [List.mem_append, not_or] at hdeep
    exact List.mem_append.mpr (hm.imp (ho.complete hdeep.1) (hp.complete hdeep.2))

/-- Leaves that declare nothing may stand before or after. -/
theorem append_nothing (ho : Declare os p) (hps : ∀ m, declare m ∉ ps) : Declare (os ++ ps) p :=
  (ho.append (nothing hps fun _ => id)).congr fun _ => by simp

theorem flatMap {ns : List ConcreteNode} {f : ConcreteNode → List Outline}
    {p : ConcreteNode → ConcreteNode → Prop} (h : ∀ n, Declare (f n) (p n)) :
    Declare (ns.flatMap f) fun m => ∃ n ∈ ns, p n m := by
  refine ⟨fun hm => ?_, fun hdeep m hm => ?_⟩
  · obtain ⟨n, hn, hm⟩ := List.mem_flatMap.mp hm
    exact ⟨n, hn, (h n).sound hm⟩
  · obtain ⟨n, hn, hm⟩ := hm
    have hn' : tooDeep ∉ f n := fun hmem => hdeep (List.mem_flatMap.mpr ⟨n, hn, hmem⟩)
    exact List.mem_flatMap.mpr ⟨n, hn, (h n).complete hn' hm⟩

end Declare

/-- Every identifier of a pattern is declared. -/
theorem declare_declareAll (depth : Nat) (n : ConcreteNode) :
    Declare (leavesAll (declareAll depth n)) n.Binds := by
  induction depth generalizing n with
  | zero => exact .cut
  | succ depth ih =>
    by_cases hn : n.construct = .identifier
    · have hall : declareAll (depth + 1) n = [declare n] := by
        simp [declareAll, hn]
      rw [hall]
      refine (Declare.one n).congr fun m => ⟨?_, ?_⟩
      · rintro rfl
        exact .itself hn
      · rintro (_ | ⟨hne, -, -⟩)
        · rfl
        · exact absurd hn hne
    · have hall : declareAll (depth + 1) n = n.phrases.flatMap (declareAll depth) := by
        rw [declareAll]
        split
        · contradiction
        · rfl
      rw [hall, leavesAll_flatMap]
      refine (Declare.flatMap ih).congr fun m => ⟨?_, ?_⟩
      · rintro ⟨c, hc, hm⟩
        exact .inner hn hc hm
      · rintro (hid | ⟨-, hc, hm⟩)
        · exact absurd hid hn
        · exact ⟨_, hc, hm⟩

theorem declare_target (n : ConcreteNode) : Declare (target n).leaves (· = n) := by
  constructor <;> simp [target, node, name, leaves, leavesAll]

theorem construct_eq_identifier {n : ConcreteNode} :
    n.construct = .identifier ↔ n.type = "identifier" := by
  constructor
  · unfold ConcreteNode.construct Construct.ofType
    split <;> simp_all
  · intro h
    rw [ConcreteNode.construct, h]
    rfl

/-- The targets of a multiple assignment declare the identifiers among
them. -/
theorem declare_targets (depth : Nat) (n : ConcreteNode) :
    Declare (leavesAll (targets blank depth n)) n.Assigns := by
  induction depth generalizing n with
  | zero => exact .cut
  | succ depth ih =>
    have hone : ∀ c : ConcreteNode, Declare
        (leavesAll (if c.construct = .identifier then [target c]
          else if c.type == "rest_assignment" || c.type == "destructured_left_assignment" then
            targets blank depth c
          else [blank c]))
        fun m => (c.construct = .identifier ∧ m = c) ∨
          ((c.type = "rest_assignment" ∨ c.type = "destructured_left_assignment") ∧
            c.Assigns m) := by
      intro c
      split
      · next hc =>
        have htype := construct_eq_identifier.mp hc
        rw [leavesAll_singleton]
        exact (declare_target c).congr fun m => by simp [hc, htype]
      · next hc =>
        split
        · next hnested => exact (ih c).congr fun m => by simp_all
        · next hnested =>
          refine .nothing ?_ fun m => by simp_all
          simp [leavesAll, leaves, blank]
    rw [targets, leavesAll_flatMap]
    refine (Declare.flatMap hone).congr fun m => ⟨?_, ?_⟩
    · rintro ⟨c, hc, ⟨hid, rfl⟩ | ⟨htype, hm⟩⟩
      · exact .identifier hc hid
      · exact .nested hc htype hm
    · rintro (⟨hc, hid⟩ | ⟨hc, htype, hm⟩)
      · exact ⟨m, hc, .inl ⟨hid, rfl⟩⟩
      · exact ⟨_, hc, .inr ⟨htype, hm⟩⟩

theorem declare_parameter (depth : Nat) (p : ConcreteNode) :
    Declare (leavesAll (parameter blank depth p)) p.Introduces := by
  unfold parameter
  by_cases hid : p.construct = .identifier
  · rw [if_pos hid]
    exact (Declare.one p).congr fun m => by simp [ConcreteNode.Introduces, hid]
  by_cases htype : p.type = "destructured_parameter"
  · rw [if_neg hid, if_pos (by simpa using htype)]
    exact (declare_declareAll depth p).congr fun m => by
      simp [ConcreteNode.Introduces, hid, htype]
  · rw [if_neg hid, if_neg (by simpa using htype), leavesAll_append]
    have hname : Declare (leavesAll ((p.child? "name").map declare).toList)
        fun m => p.child? "name" = some m := by
      cases p.child? "name" <;> constructor <;> simp [leavesAll, leaves, eq_comm]
    have hvalue : ∀ m, declare m ∉ leavesAll ((p.child? "value").map blank).toList := by
      cases p.child? "value" <;> simp [leavesAll, leaves, blank]
    exact (hname.append_nothing hvalue).congr fun m => by
      simp [ConcreteNode.Introduces, hid, htype]

/-! ## One construct after the other -/

theorem declare_notMem_blanks (ns : List ConcreteNode) (m : ConcreteNode) :
    declare m ∉ leavesAll (ns.map blank) := by
  rw [List.map_eq_flatMap, leavesAll_flatMap]
  simp [leavesAll, leaves, blank]

theorem declare_notMem_optional (n? : Option ConcreteNode) (m : ConcreteNode) :
    declare m ∉ (optional blank n?).leaves := by
  cases n? <;> simp [optional, blank, leaves]

theorem declare_notMem_statements (n : ConcreteNode) (without : List String) (m : ConcreteNode) :
    declare m ∉ leavesAll (statements blank n without) := by
  unfold statements
  cases n.child? "body" with
  | none => exact declare_notMem_blanks _ m
  | some b =>
    dsimp only
    split
    · exact declare_notMem_blanks _ m
    · simp [leavesAll, leaves, blank]

theorem declare_notMem_qualifier (n m : ConcreteNode) :
    declare m ∉ (qualifier blank n).leaves := by
  unfold qualifier
  cases n.child? "scope" <;> simp [node, leaves, leavesAll, blank]

theorem declare_notMem_qualified (n m : ConcreteNode) :
    declare m ∉ (qualified blank n).leaves := by
  unfold qualified
  cases n.child? "name" with
  | none => exact declare_notMem_blanks _ m
  | some c =>
    dsimp only
    split
    · simp [node, leaves, leavesAll, name, declare_notMem_qualifier]
    · exact declare_notMem_blanks _ m

theorem declare_notMem_send (n m : ConcreteNode) : declare m ∉ (send blank n).leaves := by
  unfold send
  cases n.child? "arguments" <;>
    simp [node, leaves, leavesAll, name, declare_notMem_optional, declare_notMem_blanks]

theorem declare_notMem_call (n m : ConcreteNode) : declare m ∉ (call blank n).leaves := by
  unfold call
  split
  · exact declare_notMem_blanks _ m
  · cases n.child? "block" <;>
      simp [tagged, leaves, leavesAll, blank, declare_notMem_send]

theorem declare_assignment (depth : Nat) (n : ConcreteNode) :
    Declare (assignment blank depth n).leaves
      fun m => ∃ left, n.child? "left" = some left ∧ left.IsAssigned m := by
  have hvalue := declare_notMem_optional (n.child? "right")
  unfold assignment
  cases n.child? "left" with
  | none =>
    refine .nothing (fun m => ?_) (by simp)
    simp [plain, tagged, leaves, leavesAll, hvalue]
  | some left =>
    simp only [Option.some.injEq, exists_eq_left', ConcreteNode.IsAssigned]
    split
    -- An identifier is declared before the value comes up.
    · next htype =>
      have hleaves : (node n .localAssign
          [declare left, name left.text, optional blank (n.child? "right")]).leaves =
            [declare left] ++ leavesAll [name left.text, optional blank (n.child? "right")] := rfl
      rw [hleaves]
      refine ((Declare.one left).append_nothing fun m => ?_).congr fun m => by simp [htype]
      simp [leaves, leavesAll, name, hvalue]
    · next htype =>
      refine .nothing (fun m => ?_) (by simp [htype])
      simp [tagged, leaves, leavesAll, name, hvalue]
    · next htype =>
      refine .nothing (fun m => ?_) (by simp [htype])
      simp [tagged, leaves, leavesAll, name, hvalue, declare_notMem_qualifier]
    · next htype =>
      have hleaves : (tagged n "masgn"
          (targets blank depth left ++ [optional blank (n.child? "right")])).leaves =
            leavesAll (targets blank depth left) ++
              (optional blank (n.child? "right")).leaves := by
        simp [tagged, leaves, leavesAll_append, leavesAll_singleton]
      rw [hleaves]
      exact ((declare_targets depth left).append_nothing hvalue).congr fun m => by simp [htype]
    · next hid _ _ hlist =>
      refine .nothing (fun m => ?_) ?_
      · simp [plain, tagged, leaves, leavesAll, blank, hvalue]
      · rintro m (⟨htype, -⟩ | ⟨htype, -⟩)
        · exact hid htype
        · exact hlist htype

theorem declare_operatorAssignment (n : ConcreteNode) :
    Declare (operatorAssignment blank n).leaves
      fun m => n.child? "left" = some m ∧ m.construct = .identifier := by
  have hvalue := declare_notMem_optional (n.child? "right")
  unfold operatorAssignment
  cases n.child? "left" with
  | none =>
    refine .nothing (fun m => ?_) (by simp)
    simp [plain, tagged, leaves, leavesAll, hvalue]
  | some left =>
    by_cases hid : left.construct = .identifier
    · have hleaves : (plain n [target left, optional blank (n.child? "right")]).leaves =
          (target left).leaves ++ (optional blank (n.child? "right")).leaves := by
        simp [plain, tagged, leaves, leavesAll]
      simp only [hid, if_true]
      rw [hleaves]
      refine ((declare_target left).append_nothing hvalue).congr fun m => ?_
      constructor
      · rintro rfl
        exact ⟨rfl, hid⟩
      · rintro ⟨hm, -⟩
        exact (Option.some.inj hm).symm
    · refine .nothing (fun m => ?_) ?_
      · simp [hid, plain, tagged, leaves, leavesAll, blank, hvalue]
      · rintro m ⟨hm, hmid⟩
        obtain rfl := Option.some.inj hm
        exact hid hmid

/-- **A node declares just what `Declares` says of it.** -/
theorem declare_own (depth : Nat) (n : ConcreteNode) : Declare (own depth n) n.Declares := by
  unfold own ofNode ConcreteNode.Declares
  cases n.construct with
  | assignment => exact declare_assignment depth n
  | operatorAssignment => exact declare_operatorAssignment n
  | parameters =>
    have hleaves : (plain n (n.phrases.flatMap (parameter blank depth))).leaves =
        n.phrases.flatMap fun p => leavesAll (parameter blank depth p) := leavesAll_flatMap _ _
    dsimp only
    rw [hleaves]
    exact .flatMap (declare_parameter depth)
  | rescued => exact declare_declareAll depth n
  | loop =>
    have hblank := declare_notMem_blanks (n.expressions ["pattern"])
    cases n.child? "pattern" with
    | none => exact .nothing hblank (by simp)
    | some pattern =>
      simp only [Option.map_some, Option.getD_some, Option.some.injEq, exists_eq_left']
      have happend := (declare_declareAll depth pattern).append_nothing hblank
      rwa [← leavesAll_append] at happend
  | _ =>
    refine .nothing (fun m => ?_) fun _ => id
    simp [node, plain, tagged, leaves, leavesAll, name, declare_notMem_optional,
      declare_notMem_statements, declare_notMem_qualified, declare_notMem_call,
      declare_notMem_blanks]

end Outline

end ConstGraph
