import ConstGraph.Json.Order

/-!
# Constant paths

A constant path is the list of its segments, outermost first: `A::B` is
`["A", "B"]`. An empty first segment marks a path written from the root,
so `::A` is `["", "A"]`. Nothing else about the segments is assumed.

The paths of a source tree have texts as segments. Those read back from
stored records may hold any values; what paths need of their segments is
the class `Segment`.
-/

namespace ConstGraph

/-- What a path can be made of: values with an order, whose equality is
that of the order, and one of which marks the root. -/
class Segment (σ : Type) extends BEq σ, Ord σ where
  /-- The segment that stands before a path written from the root. -/
  rootMarker : σ
  /-- The order is one. -/
  trans : Std.TransOrd σ
  /-- What the order does not tell apart is equal. -/
  equal : Std.LawfulBEqOrd σ

attribute [instance (10)] Segment.toBEq Segment.toOrd

instance (priority := low) Segment.transOrd {σ : Type} [Segment σ] : Std.TransOrd σ := trans

instance (priority := low) Segment.lawfulBEqOrd {σ : Type} [Segment σ] :
    Std.LawfulBEqOrd σ := equal

instance : Segment String where
  rootMarker := ""
  trans := inferInstance
  equal := inferInstance

instance : Segment Json where
  rootMarker := .str ""
  trans := Json.transOrd
  equal := Json.lawfulBEqOrd

/-- The segments of a constant path, outermost first. -/
abbrev ConstPath (σ : Type := String) := List σ

namespace ConstPath

variable {σ : Type} [Segment σ]

/-- The path is written from the root. -/
def isRooted : ConstPath σ → Bool
  | [] => false
  | s :: _ => s == Segment.rootMarker

/-- The path without its root marker, if it has one. -/
def unroot (p : ConstPath σ) : ConstPath σ :=
  if p.isRooted then p.tail else p

/-- The path as text. A root marker shows as a leading separator. -/
def render (separator : String) (p : ConstPath) : String :=
  separator.intercalate p

/-- `outer` is a nonempty initial part of `p`: it encloses `p` lexically,
or is `p` itself. -/
def encloses (outer p : ConstPath σ) : Bool :=
  !outer.isEmpty && outer.isPrefixOf p

@[simp] theorem unroot_nil : unroot ([] : ConstPath σ) = [] := rfl

@[simp] theorem unroot_marker (p : ConstPath) : unroot ("" :: p) = p := by
  simp [unroot, isRooted, Segment.rootMarker]

theorem unroot_of_not_isRooted {p : ConstPath σ} (h : p.isRooted = false) : p.unroot = p := by
  simp [unroot, h]

end ConstPath

end ConstGraph
