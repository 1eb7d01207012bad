import ConstGraph.Proofs.Outline

/-!
# Proper outlines

What an outline must be like for the places of its parts to be told by
their numbers alone: its leaves are names and gaps, what is taken apart is
one node, and the groups that become nodes of some kinds have the parts that
go with the kind, such as a name first or a receiver. The outlines of
concrete trees are like that (`proper_within`), construct by construct.
-/

namespace ConstGraph

/-- One tree comes of the outline, if any does. -/
def Outline.isSingle : Outline → Bool
  | leaf _ | read _ | tooDeep => true
  | group (.node ..) _ => true
  | _ => false

/-- The parts are those that the kind of group asks for. Where what stands
after a part is told by its number, the part is single. -/
def Grouping.Fits (ps : List Outline) : Grouping → Prop
  | node .moduleDef _ _ | node .classDef _ _ => ∃ name rest, ps = name :: rest ∧ name.isSingle
  | node .constant _ _ => ∃ qualifier x, ps = [qualifier, .name x] ∧ qualifier.isSingle
  | node .call _ _ => ∃ receiver x args, ps = receiver :: .name x :: args ∧ receiver.isSingle
  | node .localAssign _ _ => ∃ n value, ps = [.declare n, .name n.text, value] ∧ value.isSingle
  | splice => ∃ part, ps = [part] ∧ part.isSingle
  | _ => True

namespace Outline

/-- An outline is proper if its leaves are names and gaps and its groups
have the parts they need. -/
inductive Proper : Outline → Prop where
  | leaf {t : SyntaxTree} : t.isNode = false → Proper (leaf t)
  | read (n : ConcreteNode) : Proper (read n)
  | declare (n : ConcreteNode) : Proper (declare n)
  | tooDeep : Proper tooDeep
  | group {g : Grouping} {ps : List Outline} : (∀ o ∈ ps, Proper o) → g.Fits ps →
      Proper (group g ps)

/-! ## One construct after the other -/

/-- The outlines of nodes are proper, and one tree comes of each. -/
def SingleProper (out : ConcreteNode → Outline) : Prop := ∀ n, (out n).Proper ∧ (out n).isSingle

theorem proper_declareAll (depth : Nat) (n : ConcreteNode) :
    ∀ o ∈ declareAll depth n, o.Proper := by
  induction depth generalizing n with
  | zero => simpa [declareAll] using Proper.tooDeep
  | succ depth ih =>
    rw [declareAll]
    split
    · simpa using Proper.declare n
    · intro o ho
      obtain ⟨c, -, ho⟩ := List.mem_flatMap.1 ho
      exact ih c o ho

theorem proper_name (text : String) : (name text).Proper := .leaf rfl

theorem proper_absent : (leaf .absent).Proper := .leaf rfl

theorem proper_tagged {n : ConcreteNode} {tag : String} {ps : List Outline}
    (h : ∀ o ∈ ps, o.Proper) : (tagged n tag ps).Proper := .group h trivial

theorem proper_target (n : ConcreteNode) : (target n).Proper :=
  .group (by simp [Proper.declare, proper_name, proper_absent]) ⟨n, _, rfl, rfl⟩

section

variable {out : ConcreteNode → Outline}

theorem proper_optional (h : SingleProper out) (n? : Option ConcreteNode) :
    (optional out n?).Proper ∧ (optional out n?).isSingle := by
  cases n? with
  | none => exact ⟨proper_absent, rfl⟩
  | some n => exact h n

theorem proper_map (h : SingleProper out) (ns : List ConcreteNode) :
    ∀ o ∈ ns.map out, o.Proper := by
  intro o ho
  obtain ⟨n, -, rfl⟩ := List.mem_map.1 ho
  exact (h n).1

theorem proper_statements (h : SingleProper out) (n : ConcreteNode) (without : List String) :
    ∀ o ∈ statements out n without, o.Proper := by
  unfold statements
  cases n.child? "body" with
  | none => exact proper_map h _
  | some b =>
    dsimp only
    split
    · exact proper_map h _
    · simpa using (h b).1

theorem proper_body {ps : List Outline} (h : ∀ o ∈ ps, o.Proper) : (group .body ps).Proper :=
  .group h trivial

theorem proper_qualifier (h : SingleProper out) (n : ConcreteNode) :
    (qualifier out n).Proper ∧ (qualifier out n).isSingle := by
  unfold qualifier
  cases n.child? "scope" with
  | none => exact ⟨.group (by simp) trivial, rfl⟩
  | some q => exact h q

theorem proper_qualified (h : SingleProper out) (n : ConcreteNode) :
    (qualified out n).Proper ∧ (qualified out n).isSingle := by
  have hplain : (plain n ((n.expressions []).map out)).Proper := proper_tagged (proper_map h _)
  unfold qualified
  cases n.child? "name" with
  | none => exact ⟨hplain, rfl⟩
  | some c =>
    dsimp only
    split
    · refine ⟨.group ?_ ⟨_, _, rfl, (proper_qualifier h n).2⟩, rfl⟩
      simp [(proper_qualifier h n).1, proper_name]
    · exact ⟨hplain, rfl⟩

theorem proper_send (h : SingleProper out) (n : ConcreteNode) : (send out n).Proper := by
  refine .group ?_ ⟨_, _, _, rfl, (proper_optional h _).2⟩
  simp only [List.mem_cons, forall_eq_or_imp]
  refine ⟨(proper_optional h _).1, proper_name _, ?_⟩
  cases n.child? "arguments" with
  | none => simp
  | some a => exact proper_map h _

theorem proper_call (h : SingleProper out) (n : ConcreteNode) :
    (call out n).Proper ∧ (call out n).isSingle := by
  unfold call
  split
  · exact ⟨proper_tagged (proper_map h _), rfl⟩
  · cases n.child? "block" with
    | none => exact ⟨proper_send h n, rfl⟩
    | some b =>
      have hblock : (group .splice [out b]).Proper :=
        .group (by simpa using (h b).1) ⟨_, rfl, (h b).2⟩
      exact ⟨proper_tagged (by simp [proper_send h, hblock]), rfl⟩

theorem proper_targets (h : SingleProper out) (depth : Nat) (n : ConcreteNode) :
    ∀ o ∈ targets out depth n, o.Proper := by
  induction depth generalizing n with
  | zero => simpa [targets] using Proper.tooDeep
  | succ depth ih =>
    intro o ho
    obtain ⟨c, -, ho⟩ := List.mem_flatMap.1 ho
    split at ho
    · obtain rfl := List.mem_singleton.1 ho
      exact proper_target c
    · split at ho
      · exact ih c o ho
      · obtain rfl := List.mem_singleton.1 ho
        exact (h c).1

theorem proper_assignment (h : SingleProper out) (depth : Nat) (n : ConcreteNode) :
    (assignment out depth n).Proper ∧ (assignment out depth n).isSingle := by
  obtain ⟨hvalue, hsingle⟩ := proper_optional h (n.child? "right")
  unfold assignment
  cases n.child? "left" with
  | none => exact ⟨proper_tagged (by simp [proper_absent, hvalue]), rfl⟩
  | some left =>
    dsimp only
    split
    · refine ⟨.group ?_ ⟨left, _, rfl, hsingle⟩, rfl⟩
      simp [Proper.declare, proper_name, hvalue]
    · exact ⟨proper_tagged (by simp [proper_absent, proper_name, hvalue]), rfl⟩
    · exact ⟨proper_tagged (by simp [(proper_qualifier h left).1, proper_name, hvalue]), rfl⟩
    · refine ⟨proper_tagged fun o ho => ?_, rfl⟩
      rcases List.mem_append.1 ho with ho | ho
      · exact proper_targets h depth left o ho
      · obtain rfl := List.mem_singleton.1 ho
        exact hvalue
    · exact ⟨proper_tagged (by simp [(h left).1, hvalue]), rfl⟩

theorem proper_operatorAssignment (h : SingleProper out) (n : ConcreteNode) :
    (operatorAssignment out n).Proper := by
  have hvalue := (proper_optional h (n.child? "right")).1
  unfold operatorAssignment
  cases n.child? "left" with
  | none => exact proper_tagged (by simp [proper_absent, hvalue])
  | some left =>
    dsimp only
    split
    · exact proper_tagged (by simp [proper_target, hvalue])
    · exact proper_tagged (by simp [(h left).1, hvalue])

theorem proper_parameter (h : SingleProper out) (depth : Nat) (n : ConcreteNode) :
    ∀ o ∈ parameter out depth n, o.Proper := by
  unfold parameter
  split
  · simpa using Proper.declare n
  · split
    · exact proper_declareAll depth n
    · intro o ho
      rcases List.mem_append.1 ho with ho | ho
      · obtain ⟨c, -, rfl⟩ := Option.map_eq_some_iff.1 (Option.mem_toList.1 ho)
        exact .declare c
      · obtain ⟨c, -, rfl⟩ := Option.map_eq_some_iff.1 (Option.mem_toList.1 ho)
        exact (h c).1

/-- The outline of a node is proper if those of the nodes below it are. -/
theorem proper_ofNode (h : SingleProper out) (depth : Nat) : SingleProper (ofNode out depth) := by
  intro n
  have hoptional := fun n? => (proper_optional h n?).1
  unfold ofNode
  cases n.construct with
  | moduleDef =>
    refine ⟨.group ?_ ⟨_, _, rfl, (proper_optional h _).2⟩, rfl⟩
    simp [hoptional, proper_body (proper_statements h n _)]
  | classDef =>
    refine ⟨.group ?_ ⟨_, _, rfl, (proper_optional h _).2⟩, rfl⟩
    simp [hoptional, proper_body (proper_statements h n _)]
  | singletonClass =>
    refine ⟨proper_tagged ?_, rfl⟩
    simp [hoptional, proper_body (proper_statements h n _)]
  | method =>
    have hbody : (group .body (optional out (n.child? "parameters") ::
        statements out n ["name", "parameters"])).Proper :=
      proper_body (List.forall_mem_cons.2 ⟨hoptional _, proper_statements h n _⟩)
    exact ⟨.group (by simp [proper_name, hbody]) trivial, rfl⟩
  | singletonMethod =>
    have hbody : (group .body (optional out (n.child? "parameters") ::
        statements out n ["object", "name", "parameters"])).Proper :=
      proper_body (List.forall_mem_cons.2 ⟨hoptional _, proper_statements h n _⟩)
    exact ⟨.group (by simp [proper_name, hoptional, hbody]) trivial, rfl⟩
  | constant => exact ⟨.group (by simp [proper_absent, proper_name]) ⟨_, _, rfl, rfl⟩, rfl⟩
  | qualified => exact proper_qualified h n
  | call => exact proper_call h n
  | identifier => exact ⟨.read n, rfl⟩
  | assignment => exact proper_assignment h depth n
  | operatorAssignment => exact ⟨proper_operatorAssignment h n, rfl⟩
  | parameters =>
    refine ⟨proper_tagged fun o ho => ?_, rfl⟩
    obtain ⟨p, -, ho⟩ := List.mem_flatMap.1 ho
    exact proper_parameter h depth p o ho
  | block =>
    refine ⟨proper_tagged ?_, rfl⟩
    simpa using Proper.group (g := .block) (proper_map h _) trivial
  | rescued => exact ⟨proper_tagged (proper_declareAll depth n), rfl⟩
  | loop =>
    refine ⟨proper_tagged fun o ho => ?_, rfl⟩
    rcases List.mem_append.1 ho with ho | ho
    · cases hpattern : n.child? "pattern" with
      | none => simp [hpattern] at ho
      | some pattern => exact proper_declareAll depth pattern o (by simpa [hpattern] using ho)
    · exact proper_map h _ o ho
  | methodNames => exact ⟨proper_tagged (by simp), rfl⟩
  | plain => exact ⟨proper_tagged (proper_map h _), rfl⟩

end

/-- **Outlines of concrete trees are proper.** -/
theorem proper_within (depth : Nat) : SingleProper (within depth) := by
  induction depth with
  | zero => exact fun n => ⟨.tooDeep, rfl⟩
  | succ depth ih => exact proper_ofNode ih depth

end Outline

end ConstGraph
