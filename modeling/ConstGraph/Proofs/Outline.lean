import ConstGraph.Concrete.Conversion

/-!
# The outline of a concrete tree

An outline says what a concrete tree has to do with local variables, and
nothing of how they are kept in mind: which identifiers are read as
expressions and which names are declared, in the order in which they come
up, and which bodies and blocks stand around them. It also says how the
trees of its parts are put together.

`Outline.within` takes the outline of a concrete tree, construct by
construct. The conversion does what the outline says
(`elaborate_within`): it goes through the parts one after the other,
declares what is declared, and takes an identifier for a local read if its
name is in scope when it comes up.
-/

namespace ConstGraph

/-- What becomes of the parts of an outline that stand together. -/
inductive Grouping where
  /-- They are the children of a node, on the lines of a concrete one. -/
  | node (kind : NodeKind) (tag : String) (n : ConcreteNode)
  /-- The children of their trees are spliced into the node around them. -/
  | splice
  /-- They are a body, which starts without any local. -/
  | body
  /-- They are a block, which sees the locals around it and keeps its own
  to itself. -/
  | block

/-- The outline of a concrete tree, or of some of its parts. -/
inductive Outline where
  /-- A tree that depends on no local: a name or a gap. -/
  | leaf (t : SyntaxTree)
  /-- An identifier read as an expression. -/
  | read (n : ConcreteNode)
  /-- The name a node stands for is declared. -/
  | declare (n : ConcreteNode)
  /-- What is nested too deeply to be looked at. -/
  | tooDeep
  /-- Parts in the order in which they come up. -/
  | group (g : Grouping) (parts : List Outline)

namespace Outline

/-! ## Taking the outline -/

/-- A node of a kind of its own. -/
def node (n : ConcreteNode) (kind : NodeKind) : List Outline → Outline :=
  group (.node kind "" n)

/-- A tagged node. -/
def tagged (n : ConcreteNode) (tag : String) : List Outline → Outline :=
  group (.node .other tag n)

/-- A node of no particular kind. -/
def plain (n : ConcreteNode) : List Outline → Outline := tagged n n.type

/-- A name as it is written. -/
def name (text : String) : Outline := leaf (.name text)

/-- Every identifier below a node is declared: the names of a destructured
parameter, of a rescued error, or of the pattern of a loop. -/
def declareAll : Nat → ConcreteNode → List Outline
  | 0, _ => [tooDeep]
  | depth + 1, n =>
    match n.construct with
    | .identifier => [declare n]
    | _ => n.phrases.flatMap (declareAll depth)

/-- An identifier that is the target of an assignment elsewhere. -/
def target (n : ConcreteNode) : Outline := node n .localAssign [declare n, name n.text, leaf .absent]

section

variable (out : ConcreteNode → Outline)

/-- A child that may not be there. -/
def optional : Option ConcreteNode → Outline
  | none => leaf .absent
  | some n => out n

/-- The statements of a definition, without the parts named by some
fields. -/
def statements (n : ConcreteNode) (without : List String) : List Outline :=
  match n.child? "body" with
  | none => (n.expressions without).map out
  | some b => if b.type == "body_statement" then (b.expressions []).map out else [out b]

/-- The qualifier of a `::`. -/
def qualifier (n : ConcreteNode) : Outline :=
  match n.child? "scope" with
  | none => node n .root []
  | some q => out q

/-- A constant or method behind `::`. -/
def qualified (n : ConcreteNode) : Outline :=
  match n.child? "name" with
  | some c =>
    if c.construct = .constant then node n .constant [qualifier out n, name c.text]
    else plain n ((n.expressions []).map out)
  | none => plain n ((n.expressions []).map out)

/-- A call with its receiver and its arguments. -/
def send (n : ConcreteNode) : Outline :=
  let arguments := match n.child? "arguments" with
    | none => []
    | some a => (a.expressions []).map out
  let callee := match n.child? "method" with
    | none => "call"
    | some m => m.text
  node n .call (optional out (n.child? "receiver") :: name callee :: arguments)

/-- A call with its block, if it has one. -/
def call (n : ConcreteNode) : Outline :=
  if (n.child? "method").any (·.type == "super") then
    tagged n "super" ((n.expressions ["method"]).map out)
  else
    match n.child? "block" with
    | none => send out n
    | some b => tagged n "block" [send out n, group .splice [out b]]

/-- The targets of a multiple assignment: identifiers are declared, also
behind a splat and inside parentheses; anything else is an expression. -/
def targets : Nat → ConcreteNode → List Outline
  | 0, _ => [tooDeep]
  | depth + 1, n => n.phrases.flatMap fun c =>
    if c.construct = .identifier then [target c]
    else if c.type == "rest_assignment" || c.type == "destructured_left_assignment" then
      targets depth c
    else [out c]

/-- An assignment. What it declares comes up before its value. -/
def assignment (depth : Nat) (n : ConcreteNode) : Outline :=
  let value := optional out (n.child? "right")
  match n.child? "left" with
  | none => plain n [leaf .absent, value]
  | some left =>
    match left.type with
    | "identifier" => node n .localAssign [declare left, name left.text, value]
    | "constant" => tagged n "casgn" [leaf .absent, name left.text, value]
    | "scope_resolution" =>
      tagged n "casgn"
        [qualifier out left, name (Conversion.textOf (left.child? "name")), value]
    | "left_assignment_list" => tagged n "masgn" (targets out depth left ++ [value])
    | _ => plain n [out left, value]

/-- An assignment through an operator. -/
def operatorAssignment (n : ConcreteNode) : Outline :=
  let assigned := match n.child? "left" with
    | none => leaf .absent
    | some left => if left.construct = .identifier then target left else out left
  plain n [assigned, optional out (n.child? "right")]

/-- A parameter: an identifier, a destructured one, or one with a name and
perhaps a default value, which comes up after it. -/
def parameter (depth : Nat) (n : ConcreteNode) : List Outline :=
  if n.construct = .identifier then [declare n]
  else if n.type == "destructured_parameter" then declareAll depth n
  else ((n.child? "name").map declare).toList ++ ((n.child? "value").map out).toList

/-- The outline of a node, given those of the nodes below it. -/
def ofNode (depth : Nat) (n : ConcreteNode) : Outline :=
  match n.construct with
  | .moduleDef =>
    node n .moduleDef [optional out (n.child? "name"), group .body (statements out n ["name"])]
  | .classDef =>
    node n .classDef [optional out (n.child? "name"),
      optional out (Conversion.superclass? n),
      group .body (statements out n ["name", "superclass"])]
  | .singletonClass =>
    plain n [optional out (n.child? "value"), group .body (statements out n ["value"])]
  | .method =>
    node n .methodDef [name (Conversion.textOf (n.child? "name")),
      group .body (optional out (n.child? "parameters") ::
        statements out n ["name", "parameters"])]
  | .singletonMethod =>
    node n .singletonDef [optional out (n.child? "object"),
      name (Conversion.textOf (n.child? "name")),
      group .body (optional out (n.child? "parameters") ::
        statements out n ["object", "name", "parameters"])]
  | .constant => node n .constant [leaf .absent, name n.text]
  | .qualified => qualified out n
  | .call => call out n
  | .identifier => read n
  | .assignment => assignment out depth n
  | .operatorAssignment => operatorAssignment out n
  | .parameters => plain n (n.phrases.flatMap (parameter out depth))
  | .block => plain n [group .block ((n.expressions []).map out)]
  | .rescued => plain n (declareAll depth n)
  | .loop =>
    plain n (((n.child? "pattern").map (declareAll depth)).getD [] ++
      (n.expressions ["pattern"]).map out)
  | .methodNames => plain n []
  | .plain => plain n ((n.expressions []).map out)

end

/-- The outline of a tree that goes no deeper than a number of levels. -/
def within : Nat → ConcreteNode → Outline
  | 0, _ => tooDeep
  | depth + 1, n => ofNode (within depth) depth n

/-! ## Following the outline -/

mutual

/-- Go through an outline with the locals in scope, and put its trees
together. -/
def elaborate : Outline → Conversion (List SyntaxTree)
  | leaf t => pure [t]
  | read n => do return [← Conversion.identifier n]
  | declare n => do
    Conversion.declare n.text
    return []
  | tooDeep => throw .tooDeep
  | group (.node kind tag n) parts => do
    let ts ← elaborateAll parts
    return [.node kind ts (← Conversion.span n) tag]
  | group .splice parts => do return (← elaborateAll parts).flatMap (·.children)
  | group .body parts => Conversion.inFresh (elaborateAll parts)
  | group .block parts => Conversion.inChild (elaborateAll parts)

/-- Go through outlines one after the other. -/
def elaborateAll : List Outline → Conversion (List SyntaxTree)
  | [] => pure []
  | o :: os => do
    let ts ← elaborate o
    let us ← elaborateAll os
    return ts ++ us

end

/-- The outlines of nodes say what the conversion makes of them. -/
def Describes (out : ConcreteNode → Outline) (conv : ConcreteNode → Conversion SyntaxTree) : Prop :=
  ∀ n, (out n).elaborate = (do return [← conv n])

theorem elaborateAll_append (os ps : List Outline) :
    elaborateAll (os ++ ps) = (do
      let ts ← elaborateAll os
      let us ← elaborateAll ps
      return ts ++ us) := by
  induction os with
  | nil => simp [elaborateAll]
  | cons o os ih =>
    simp only [List.cons_append, elaborateAll, ih, bind_assoc, pure_bind, List.append_assoc]

theorem elaborateAll_singleton (o : Outline) : elaborateAll [o] = o.elaborate := by
  simp [elaborateAll]

/-- Nodes converted one after the other are parts that come up in order. -/
theorem elaborateAll_flatMap {f : ConcreteNode → Conversion (List SyntaxTree)}
    {g : ConcreteNode → List Outline} (h : ∀ n, elaborateAll (g n) = f n)
    (ns : List ConcreteNode) : elaborateAll (ns.flatMap g) = Conversion.gather f ns := by
  induction ns with
  | nil => simp [elaborateAll, Conversion.gather]
  | cons n ns ih => rw [List.flatMap_cons, elaborateAll_append, h, ih, Conversion.gather]

/-! ## One construct after the other -/

section

variable {out : ConcreteNode → Outline} {conv : ConcreteNode → Conversion SyntaxTree}

theorem elaborate_optional (h : Describes out conv) (n? : Option ConcreteNode) :
    (optional out n?).elaborate = (do return [← Conversion.optional conv n?]) := by
  cases n? with
  | none => simp [optional, elaborate, Conversion.optional]
  | some n => exact h n

theorem elaborateAll_map (h : Describes out conv) (ns : List ConcreteNode) :
    elaborateAll (ns.map out) = Conversion.each conv ns := by
  rw [List.map_eq_flatMap]
  exact elaborateAll_flatMap (fun n => (elaborateAll_singleton _).trans (h n)) ns

theorem elaborateAll_statements (h : Describes out conv) (n : ConcreteNode)
    (without : List String) :
    elaborateAll (statements out n without) = Conversion.body conv n without := by
  unfold statements Conversion.body
  cases n.child? "body" with
  | none => exact elaborateAll_map h _
  | some b =>
    dsimp only
    split
    · exact elaborateAll_map h _
    · rw [elaborateAll_singleton, h]

theorem elaborateAll_declareAll (depth : Nat) (n : ConcreteNode) :
    elaborateAll (declareAll depth n) = (do
      Conversion.declareAll depth n
      return []) := by
  induction depth generalizing n with
  | zero => rfl
  | succ depth ih =>
    have hall : ∀ ns : List ConcreteNode, elaborateAll (ns.flatMap (declareAll depth)) = (do
        ns.forM (Conversion.declareAll depth)
        return []) := by
      intro ns
      induction ns with
      | nil => simp [elaborateAll]
      | cons n ns ihns =>
        simp only [List.flatMap_cons, elaborateAll_append, ih, ihns, List.forM, bind_assoc,
          pure_bind, List.append_nil]
    rw [declareAll, Conversion.declareAll]
    cases n.construct with
    | identifier => simp only [elaborateAll_singleton, elaborate]
    | _ => exact hall _

theorem elaborate_node (n : ConcreteNode) (kind : NodeKind) (parts : List Outline) :
    (node n kind parts).elaborate = (do
      let ts ← elaborateAll parts
      return [← Conversion.build n kind ts]) := by
  simp only [node, elaborate, Conversion.build, bind_assoc, pure_bind]

theorem elaborate_tagged (n : ConcreteNode) (tag : String) (parts : List Outline) :
    (tagged n tag parts).elaborate = (do
      let ts ← elaborateAll parts
      return [← Conversion.tagged n tag ts]) := by
  simp only [tagged, elaborate, Conversion.tagged, bind_assoc, pure_bind]

theorem elaborate_plain (n : ConcreteNode) (parts : List Outline) :
    (plain n parts).elaborate = (do
      let ts ← elaborateAll parts
      return [← Conversion.plain n ts]) :=
  elaborate_tagged n n.type parts

theorem elaborate_target (n : ConcreteNode) :
    (target n).elaborate = (do return [← Conversion.target n]) := by
  simp only [target, elaborate_node, elaborateAll, elaborate, name, Conversion.target, bind_assoc,
    pure_bind, List.nil_append, List.cons_append]

theorem elaborate_qualifier (h : Describes out conv) (n : ConcreteNode) :
    (qualifier out n).elaborate = (do return [← Conversion.qualifier conv n]) := by
  unfold qualifier Conversion.qualifier
  cases n.child? "scope" with
  | none => simp only [elaborate_node, elaborateAll, pure_bind]
  | some q => exact h q

theorem elaborate_qualified (h : Describes out conv) (n : ConcreteNode) :
    (qualified out n).elaborate = (do return [← Conversion.qualified conv n]) := by
  have hplain : (plain n ((n.expressions []).map out)).elaborate = (do
      return [← (do Conversion.plain n (← Conversion.each conv (n.expressions [])))]) := by
    simp only [elaborate_plain, elaborateAll_map h, bind_assoc]
  unfold qualified Conversion.qualified
  cases n.child? "name" with
  | none => exact hplain
  | some c =>
    dsimp only
    cases c.construct with
    | constant =>
      simp only [if_true, elaborate_node, elaborateAll, elaborate_qualifier h, elaborate, name,
        bind_assoc, pure_bind, List.nil_append, List.cons_append]
    | _ => exact hplain

theorem elaborate_send (h : Describes out conv) (n : ConcreteNode) :
    (send out n).elaborate = (do return [← Conversion.send conv n (n.child? "method")]) := by
  unfold send Conversion.send
  cases n.child? "arguments" <;> cases n.child? "method" <;>
    simp only [elaborate_node, elaborateAll, elaborateAll_map h, elaborate_optional h, elaborate,
      name, bind_assoc, pure_bind, List.nil_append, List.cons_append]

theorem elaborate_call (h : Describes out conv) (n : ConcreteNode) :
    (call out n).elaborate = (do return [← Conversion.call conv n]) := by
  unfold call Conversion.call
  dsimp only
  split
  · simp only [elaborate_tagged, elaborateAll_map h, bind_assoc]
  · cases n.child? "block" with
    | none => simp only [elaborate_send h, bind_assoc, pure_bind]
    | some b =>
      simp only [elaborate_tagged, elaborateAll, elaborate_send h, elaborate, h b, bind_assoc,
        pure_bind, List.nil_append, List.cons_append, List.append_nil, List.flatMap_cons,
        List.flatMap_nil]

theorem elaborateAll_targets (h : Describes out conv) (depth : Nat) (n : ConcreteNode) :
    elaborateAll (targets out depth n) = Conversion.targets conv depth n := by
  induction depth generalizing n with
  | zero => rfl
  | succ depth ih =>
    rw [targets, Conversion.targets]
    refine elaborateAll_flatMap (fun c => ?_) _
    split
    · rw [elaborateAll_singleton, elaborate_target]
    · split
      · exact ih c
      · rw [elaborateAll_singleton, h]

theorem elaborate_assignment (h : Describes out conv) (depth : Nat) (n : ConcreteNode) :
    (assignment out depth n).elaborate = (do return [← Conversion.assignment conv depth n]) := by
  unfold assignment Conversion.assignment
  cases n.child? "left" with
  | none =>
    simp only [elaborate_plain, elaborateAll, elaborate_optional h, elaborate, bind_assoc,
      pure_bind, List.nil_append, List.cons_append]
  | some left =>
    dsimp only
    generalize left.type = type
    split <;>
      simp only [elaborate_node, elaborate_tagged, elaborate_plain, elaborateAll,
        elaborateAll_append, elaborateAll_targets h, elaborate_qualifier h, elaborate_optional h,
        h left, elaborate, name, bind_assoc, pure_bind, List.nil_append, List.cons_append,
        List.append_nil]

theorem elaborate_operatorAssignment (h : Describes out conv) (n : ConcreteNode) :
    (operatorAssignment out n).elaborate =
      (do return [← Conversion.operatorAssignment conv n]) := by
  unfold operatorAssignment Conversion.operatorAssignment
  cases n.child? "left" with
  | none =>
    simp only [elaborate_plain, elaborateAll, elaborate_optional h, elaborate, bind_assoc,
      pure_bind, List.nil_append, List.cons_append]
  | some left =>
    by_cases hleft : left.construct = .identifier <;>
      simp only [hleft, if_true, if_false, elaborate_plain, elaborateAll, elaborate_target, h left,
        elaborate_optional h, bind_assoc, pure_bind, List.nil_append, List.cons_append]

theorem elaborateAll_parameter (h : Describes out conv) (depth : Nat) (n : ConcreteNode) :
    elaborateAll (parameter out depth n) = Conversion.parameter conv depth n := by
  unfold parameter Conversion.parameter
  split
  · simp only [elaborateAll_singleton, elaborate]
  · split
    · exact elaborateAll_declareAll depth n
    · cases n.child? "name" <;> cases n.child? "value" <;>
        simp only [Option.map_none, Option.map_some, Option.toList_none, Option.toList_some,
          List.nil_append, List.append_nil, List.cons_append, elaborateAll, elaborate, h _,
          bind_assoc, pure_bind]

/-- **The outline of a node says what the conversion makes of it** if those
of the nodes below it do. -/
theorem elaborate_ofNode (h : Describes out conv) (depth : Nat) :
    Describes (ofNode out depth) (Conversion.convertNode conv depth) := by
  intro n
  unfold ofNode Conversion.convertNode
  cases n.construct with
  | moduleDef =>
    simp only [Conversion.moduleDef, elaborate_node, elaborateAll, elaborateAll_statements h,
      elaborate_optional h, elaborate, bind_assoc, pure_bind, List.cons_append, List.nil_append,
      List.append_nil]
  | classDef =>
    simp only [Conversion.classDef, elaborate_node, elaborateAll, elaborateAll_statements h,
      elaborate_optional h, elaborate, bind_assoc, pure_bind, List.cons_append, List.nil_append,
      List.append_nil]
  | singletonClass =>
    simp only [Conversion.singletonClass, elaborate_plain, elaborateAll, elaborateAll_statements h,
      elaborate_optional h, elaborate, bind_assoc, pure_bind, List.cons_append, List.nil_append,
      List.append_nil]
  | method =>
    simp only [Conversion.method, Conversion.signature, elaborate_node, elaborateAll,
      elaborateAll_statements h, elaborate_optional h, elaborate, name, bind_assoc, pure_bind,
      List.cons_append, List.nil_append, List.append_nil]
  | singletonMethod =>
    simp only [Conversion.singletonMethod, Conversion.signature, elaborate_node, elaborateAll,
      elaborateAll_statements h, elaborate_optional h, elaborate, name, bind_assoc, pure_bind,
      List.cons_append, List.nil_append, List.append_nil]
  | constant =>
    simp only [elaborate_node, elaborateAll, elaborate, name, pure_bind, List.cons_append,
      List.nil_append]
  | qualified => exact elaborate_qualified h n
  | call => exact elaborate_call h n
  | identifier => rfl
  | assignment => exact elaborate_assignment h depth n
  | operatorAssignment => exact elaborate_operatorAssignment h n
  | parameters =>
    simp only [elaborate_plain, elaborateAll_flatMap (elaborateAll_parameter h depth), bind_assoc]
  | block =>
    simp only [elaborate_plain, elaborateAll_singleton, elaborate, elaborateAll_map h, bind_assoc]
  | rescued => simp only [elaborate_plain, elaborateAll_declareAll, bind_assoc, pure_bind]
  | loop =>
    cases n.child? "pattern" <;>
      simp only [Option.map_none, Option.map_some, Option.getD_none, Option.getD_some,
        elaborate_plain, elaborateAll_append, elaborateAll_declareAll, elaborateAll_map h,
        bind_assoc, pure_bind, List.nil_append]
  | methodNames => simp only [elaborate_plain, elaborateAll, pure_bind]
  | plain => simp only [elaborate_plain, elaborateAll_map h, bind_assoc]

end

/-- **The conversion does what the outline says.** -/
theorem elaborate_within (depth : Nat) : Describes (within depth) (Conversion.convert depth) := by
  induction depth with
  | zero => exact fun _ => rfl
  | succ depth ih => exact elaborate_ofNode ih depth

end Outline

end ConstGraph
