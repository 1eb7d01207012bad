import ConstGraph.Syntax.ConstName
import ConstGraph.Walk.TypeScope

/-!
# Where the walk stands

A context is all the walk knows of the scope around a node: the path of
the innermost definition, the innermost method, the call it is an operand
of, and the types of the locals. An inference decides which type a local
assignment binds.
-/

namespace ConstGraph

/-- The scope around a node of the walk. -/
structure WalkContext where
  /-- The path of the innermost definition. -/
  path : ConstPath := []
  /-- The innermost method, or the innermost marker call. -/
  inMethod : String := ""
  /-- The method of the innermost call. -/
  callee : String := ""
  /-- The types of the locals bound so far. -/
  types : TypeScope := .empty
  deriving DecidableEq, Repr

/-- Decides the type a local assignment binds in a context, if any. -/
abbrev Inference := SyntaxTree → WalkContext → Option InferredType

namespace Inference

/-- Local assignments bind no type. -/
def none : Inference := fun _ _ => .none

/-- The path of `P` in an assignment `x = P.new(…)`, as written. -/
def constructorPath? : SyntaxTree → Option ConstPath
  | .node .localAssign (_ :: .node .call (receiver :: .name "new" :: _) _ _ :: _) _ _ =>
    if receiver.kind? = some .constant then some (receiver.constPath []) else .none
  | _ => .none

/-- `x = P.new(…)` binds the type `P`; every other assignment binds none. -/
def constructor : Inference := fun t _ =>
  (constructorPath? t).filter (!·.isEmpty) |>.map fun p => ⟨p, true⟩

end Inference

namespace WalkContext

/-- The local variable a tree assigns, if it is a local assignment. -/
def assigned? : SyntaxTree → Option String
  | .node .localAssign (.name x :: _) _ _ => some x
  | _ => none

/-- The context after a sibling: a local assignment binds its inferred
type, and where none is inferred forgets the type the name had. -/
def after (infer : Inference) (t : SyntaxTree) (ctx : WalkContext) : WalkContext :=
  match assigned? t with
  | none => ctx
  | some x =>
    match infer t ctx with
    | some type => { ctx with types := ctx.types.bind x type }
    | none =>
      if ctx.types.contains x then { ctx with types := ctx.types.bind x .unknown } else ctx

end WalkContext

end ConstGraph
