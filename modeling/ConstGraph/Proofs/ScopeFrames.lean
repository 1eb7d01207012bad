import ConstGraph.Proofs.LocalReads
import ConstGraph.Proofs.Places

/-!
# Frames of local variables are kept apart

Converting a node declares names in the innermost frame it is given and
leaves the frames around it alone. A block opens a frame of its own and a
method a chain of its own, so neither adds a name to the scope it stands
in, and what is built of a body is the same whatever scope stands around
it.

All of it is read off the outline of the node. What it leaves in scope is
what it exposes (`convert_scope`); a body is gone through with no local in
scope (`elaborate_before_body`); and whether and why a conversion stops has
nothing to do with the locals (`alike_elaborate`).
-/

namespace ConstGraph

/-! ## Scopes that grow -/

/-- Names are added to the innermost frame and nothing else is changed. -/
structure LocalScope.Grows (s s' : LocalScope) : Prop where
  /-- The frames around are what they were. -/
  enclosing : s'.enclosing = s.enclosing
  /-- No name is lost from the innermost frame. -/
  names : s.names <:+ s'.names

namespace LocalScope

theorem grows_declare (s : LocalScope) (x : String) : s.Grows (s.declare x) := by
  refine ⟨rfl, ?_⟩
  unfold declare insert
  split
  · exact List.suffix_refl _
  · exact List.suffix_cons x _

theorem Grows.trans {s s' s'' : LocalScope} (h : s.Grows s') (h' : s'.Grows s'') : s.Grows s'' :=
  ⟨h'.enclosing.trans h.enclosing, h.names.trans h'.names⟩

theorem grows_foldl_declare (xs : List String) (s : LocalScope) :
    s.Grows (xs.foldl declare s) := by
  induction xs generalizing s with
  | nil => exact ⟨rfl, List.suffix_refl _⟩
  | cons x xs ih => exact (s.grows_declare x).trans (ih _)

theorem mem_names_foldl_declare (xs : List String) (s : LocalScope) (x : String) :
    x ∈ (xs.foldl declare s).names ↔ x ∈ s.names ∨ x ∈ xs := by
  induction xs generalizing s with
  | nil => simp
  | cons y xs ih =>
    have hone : x ∈ (s.declare y).names ↔ x ∈ s.names ∨ x = y := by
      unfold declare insert
      split
      · next hy => exact ⟨Or.inl, fun h => h.elim id fun he => he ▸ hy⟩
      · simp [or_comm]
    rw [List.foldl_cons, ih, hone, List.mem_cons, or_assoc]

end LocalScope

namespace Outline

/-- The names of all frames of a scope. -/
theorem holds_names (s : LocalScope) : Holds s (s.names ++ s.enclosing.flatten) := by
  intro x
  simp [LocalScope.contains]

theorem elaborate_scope {o : Outline} {s s' : LocalScope} {ts : List SyntaxTree}
    (h : o.elaborate s = .ok (ts, s')) : s' = o.exposed.foldl LocalScope.declare s := by
  rw [o.elaborate_eq_build _ s (holds_names s)] at h
  cases hbuild : o.build (o.holdsAt (s.names ++ s.enclosing.flatten)) with
  | error e => rw [hbuild] at h; cases h
  | ok us => rw [hbuild] at h; cases h; rfl

theorem elaborateAll_scope {os : List Outline} {s s' : LocalScope} {ts : List SyntaxTree}
    (h : elaborateAll os s = .ok (ts, s')) :
    s' = (exposedAll os).foldl LocalScope.declare s := by
  have hsplice : (group .splice os).elaborate s = .ok (ts.flatMap (·.children), s') := by
    rw [elaborate, bind_apply, h]
    rfl
  have hscope := elaborate_scope hsplice
  rwa [exposed] at hscope

end Outline

namespace Conversion

open Outline (within)

theorem elaborate_convert (depth : Nat) (n : ConcreteNode) (s : LocalScope) :
    (within depth n).elaborate s = (convert depth n s).map fun r => ([r.1], r.2) := by
  rw [Outline.elaborate_within, Outline.bind_apply]
  cases convert depth n s <;> rfl

theorem convert_eq_of_elaborate {depth : Nat} {n : ConcreteNode} {s : LocalScope}
    {r : Except ConversionError (SyntaxTree × LocalScope)}
    (h : (within depth n).elaborate s = r.map fun x => ([x.1], x.2)) : convert depth n s = r := by
  rw [elaborate_convert] at h
  cases hconvert : convert depth n s with
  | error e =>
    cases r with
    | error e' => rw [hconvert] at h; cases h; rfl
    | ok x => rw [hconvert] at h; cases h
  | ok y =>
    cases r with
    | error e' => rw [hconvert] at h; cases h
    | ok x =>
      rw [hconvert] at h
      simpa [Except.map, Prod.ext_iff] using h

/-- **A conversion leaves in scope what was there and what the node
exposes.** -/
theorem convert_scope {depth : Nat} {n : ConcreteNode} {s s' : LocalScope} {t : SyntaxTree}
    (h : convert depth n s = .ok (t, s')) :
    s' = (within depth n).exposed.foldl LocalScope.declare s := by
  have helaborate : (within depth n).elaborate s = .ok ([t], s') := by
    rw [elaborate_convert, h]
    rfl
  exact Outline.elaborate_scope helaborate

/-- Converting nodes one after the other only adds to the innermost
frame. -/
theorem each_grows {depth : Nat} {ns : List ConcreteNode} {s s' : LocalScope}
    {ts : List SyntaxTree} (h : each (convert depth) ns s = .ok (ts, s')) : s.Grows s' := by
  rw [← Outline.elaborateAll_map (Outline.elaborate_within depth)] at h
  rw [Outline.elaborateAll_scope h]
  exact LocalScope.grows_foldl_declare _ s

end Conversion

/-! ## What the locals have no part in -/

/-- Two conversions stop for the same reason, or neither of them stops. -/
def Alike {α : Type} (r r' : Except ConversionError (α × LocalScope)) : Prop :=
  r.map (fun _ => ()) = r'.map fun _ => ()

namespace Alike

variable {α β : Type} {r r' : Except ConversionError (α × LocalScope)}

theorem cases (h : Alike r r') :
    (∃ e, r = .error e ∧ r' = .error e) ∨ ∃ x x', r = .ok x ∧ r' = .ok x' := by
  cases r with
  | error e =>
    cases r' with
    | error e' =>
      cases h
      exact Or.inl ⟨e, rfl, rfl⟩
    | ok x' => cases h
  | ok x =>
    cases r' with
    | error e' => cases h
    | ok x' => exact Or.inr ⟨x, x', rfl, rfl⟩

theorem bind (h : Alike r r') {f f' : α × LocalScope → Except ConversionError (β × LocalScope)}
    (hf : ∀ x x', Alike (f x) (f' x')) : Alike (r.bind f) (r'.bind f') := by
  obtain ⟨e, rfl, rfl⟩ | ⟨x, x', rfl, rfl⟩ := h.cases
  · rfl
  · exact hf x x'

theorem map (h : Alike r r') (f f' : α × LocalScope → β × LocalScope) :
    Alike (r.map f) (r'.map f') := by
  obtain ⟨e, rfl, rfl⟩ | ⟨x, x', rfl, rfl⟩ := h.cases <;> rfl

theorem map_lines (n : ConcreteNode) (f f' : LineSpan → β × LocalScope) :
    Alike (n.lines.map f) (n.lines.map f') := by
  cases n.lines <;> rfl

end Alike

namespace Outline

theorem alike_elaborateAll {os : List Outline}
    (hos : ∀ o ∈ os, ∀ s s', Alike (o.elaborate s) (o.elaborate s')) (s s' : LocalScope) :
    Alike (elaborateAll os s) (elaborateAll os s') := by
  induction os generalizing s s' with
  | nil => rfl
  | cons o os ih =>
    refine (hos o List.mem_cons_self s s').bind fun x x' => ?_
    have hrest := ih (fun o ho => hos o (List.mem_cons_of_mem _ ho)) x.2 x'.2
    exact hrest.bind fun _ _ => rfl

/-- **Whether and why going through an outline stops does not depend on the
locals in scope.** -/
theorem alike_elaborate (o : Outline) (s s' : LocalScope) :
    Alike (o.elaborate s) (o.elaborate s') := by
  induction o using induction_parts generalizing s s' with
  | leaf t => rfl
  | read n =>
    rw [elaborate, bind_apply, bind_apply, identifier_apply, identifier_apply]
    exact (Alike.map_lines n _ _).bind fun _ _ => rfl
  | declare n => rfl
  | tooDeep => rfl
  | group g ps ih =>
    have hparts := fun s s' => alike_elaborateAll ih s s'
    cases g with
    | node kind tag n =>
      rw [elaborate, bind_apply, bind_apply]
      refine (hparts s s').bind fun x x' => ?_
      rw [bind_apply, bind_apply, span_apply, span_apply]
      exact (Alike.map_lines n _ _).bind fun _ _ => rfl
    | splice =>
      rw [elaborate, bind_apply, bind_apply]
      exact (hparts s s').bind fun _ _ => rfl
    | body =>
      rw [elaborate, Conversion.inFresh, Conversion.inFresh]
      exact (hparts .empty .empty).map _ _
    | block =>
      rw [elaborate, Conversion.inChild, Conversion.inChild]
      exact (hparts s.child s'.child).map _ _

/-- A tree comes of each outline that is single. -/
theorem length_elaborateAll {os : List Outline} (hos : ∀ o ∈ os, o.isSingle) {s : LocalScope}
    {r : List SyntaxTree × LocalScope} (h : elaborateAll os s = .ok r) : r.1.length = os.length := by
  induction os generalizing s r with
  | nil =>
    cases h
    rfl
  | cons o os ih =>
    rw [elaborateAll, bind_apply, o.elaborate_eq_build _ s (holds_names s)] at h
    cases hbuild : o.build (o.holdsAt (s.names ++ s.enclosing.flatten)) with
    | error e => rw [hbuild] at h; cases h
    | ok ts =>
      obtain ⟨t, rfl⟩ := exists_build_single (hos o List.mem_cons_self) hbuild
      rw [hbuild] at h
      simp only [Except.map, Except.bind, bind_apply] at h
      cases hrest : elaborateAll os (o.exposed.foldl LocalScope.declare s) with
      | error e => rw [hrest] at h; cases h
      | ok x =>
        have hlength := ih (fun o ho => hos o (List.mem_cons_of_mem _ ho)) hrest
        rw [hrest] at h
        cases h
        simp [hlength]

/-! ## Bodies -/

/-- A body behind other parts is gone through with no local in scope. -/
theorem elaborate_before_body (kind : NodeKind) (tag : String) (n : ConcreteNode)
    (front ps : List Outline) (s : LocalScope) :
    (group (.node kind tag n) (front ++ [group .body ps])).elaborate s =
      (elaborateAll front s).bind fun x => (elaborateAll ps .empty).bind fun y =>
        n.lines.map fun span => ([.node kind (x.1 ++ y.1) span tag], x.2) := by
  rw [elaborate, elaborateAll_append, elaborateAll_singleton, bind_apply, bind_apply]
  cases elaborateAll front s with
  | error e => rfl
  | ok x =>
    simp only [Except.bind, bind_apply, elaborate, Conversion.inFresh]
    cases elaborateAll ps .empty with
    | error e => rfl
    | ok y =>
      simp only [Except.map, span_apply]
      cases n.lines <;> rfl

end Outline

/-- Two conversions stop for the same reason, or build nodes that are the
same but for their first children, of which each has `k`. -/
def SameButFirst (k : Nat) (r r' : Except ConversionError SyntaxTree) : Prop :=
  (∃ e, r = .error e ∧ r' = .error e) ∨
    ∃ kind front front' rest span tag, front.length = k ∧ front'.length = k ∧
      r = .ok (.node kind (front ++ rest) span tag) ∧
      r' = .ok (.node kind (front' ++ rest) span tag)

/-- The number of children that a definition has in front of what is
converted without the locals around it. -/
def ConcreteNode.beforeBody? (n : ConcreteNode) : Option Nat :=
  match n.construct with
  -- the name
  | .moduleDef => some 1
  -- the name and the superclass
  | .classDef => some 2
  -- the value
  | .singletonClass => some 1
  -- the name, which is a text
  | .method => some 1
  -- the receiver and the name
  | .singletonMethod => some 2
  | _ => none

namespace Outline

/-- The outline of a definition: single parts, and the body last. -/
theorem within_definition {n : ConcreteNode} {k : Nat} (hk : n.beforeBody? = some k) (depth : Nat) :
    ∃ kind tag front ps, within (depth + 1) n = group (.node kind tag n) (front ++ [group .body ps]) ∧
      front.length = k ∧ ∀ o ∈ front, o.isSingle := by
  have hoptional := fun n? => (proper_optional (proper_within depth) n?).2
  have hname : ∀ x, (name x).isSingle := fun _ => rfl
  rw [within, ofNode]
  unfold ConcreteNode.beforeBody? at hk
  cases hn : n.construct with
  | moduleDef =>
    rw [hn] at hk
    cases hk
    exact ⟨_, _, [_], _, rfl, rfl, by simp [hoptional]⟩
  | classDef =>
    rw [hn] at hk
    cases hk
    exact ⟨_, _, [_, _], _, rfl, rfl, by simp [hoptional]⟩
  | singletonClass =>
    rw [hn] at hk
    cases hk
    exact ⟨_, _, [_], _, rfl, rfl, by simp [hoptional]⟩
  | method =>
    rw [hn] at hk
    cases hk
    exact ⟨_, _, [_], _, rfl, rfl, by simp [hname]⟩
  | singletonMethod =>
    rw [hn] at hk
    cases hk
    exact ⟨_, _, [_, _], _, rfl, rfl, by simp [hoptional, hname]⟩
  | _ =>
    rw [hn] at hk
    cases hk

end Outline

namespace Conversion

/-- A definition is converted in two steps: what stands in front of its body
in the scope around it, the body with no local in scope. -/
theorem convert_definition {n : ConcreteNode} {depth : Nat} {kind : NodeKind} {tag : String}
    {front ps : List Outline}
    (h : Outline.within (depth + 1) n = .group (.node kind tag n) (front ++ [.group .body ps]))
    (s : LocalScope) :
    convert (depth + 1) n s =
      (Outline.elaborateAll front s).bind fun x => (Outline.elaborateAll ps .empty).bind fun y =>
        n.lines.map fun span => (.node kind (x.1 ++ y.1) span tag, x.2) := by
  refine convert_eq_of_elaborate ?_
  rw [h, Outline.elaborate_before_body]
  cases Outline.elaborateAll front s with
  | error e => rfl
  | ok x =>
    cases Outline.elaborateAll ps .empty with
    | error e => rfl
    | ok y => cases n.lines <;> rfl

/-- **The body of a definition is the same whatever scope stands around
it.** -/
theorem sameButFirst_convert {n : ConcreteNode} {k : Nat} (hk : n.beforeBody? = some k)
    (depth : Nat) (s s' : LocalScope) :
    SameButFirst k ((convert depth n s).map Prod.fst) ((convert depth n s').map Prod.fst) := by
  cases depth with
  | zero => exact Or.inl ⟨.tooDeep, rfl, rfl⟩
  | succ depth =>
    obtain ⟨kind, tag, front, ps, hwithin, hlength, hsingle⟩ := Outline.within_definition hk depth
    have hfront : Alike (Outline.elaborateAll front s) (Outline.elaborateAll front s') :=
      Outline.alike_elaborateAll (fun o _ => o.alike_elaborate) s s'
    rw [convert_definition hwithin, convert_definition hwithin]
    obtain ⟨e, he, he'⟩ | ⟨x, x', hx, hx'⟩ := hfront.cases
    · exact Or.inl ⟨e, by rw [he]; rfl, by rw [he']; rfl⟩
    rw [hx, hx']
    cases Outline.elaborateAll ps .empty with
    | error e => exact Or.inl ⟨e, rfl, rfl⟩
    | ok y =>
      cases n.lines with
      | error e => exact Or.inl ⟨e, rfl, rfl⟩
      | ok span =>
        have hbefore : x.1.length = k := (Outline.length_elaborateAll hsingle hx).trans hlength
        have hbefore' : x'.1.length = k := (Outline.length_elaborateAll hsingle hx').trans hlength
        exact Or.inr ⟨kind, x.1, x'.1, y.1, span, tag, hbefore, hbefore', rfl, rfl⟩

theorem exposed_within {n : ConcreteNode} (hn : n.construct = .block ∨ n.construct = .method)
    (depth : Nat) : (Outline.within depth n).exposed = [] := by
  cases depth with
  | zero => rfl
  | succ depth =>
    rw [Outline.within, Outline.ofNode]
    rcases hn with hn | hn <;> rw [hn] <;> rfl

/-- What is built of a method depends on no local around it. -/
theorem map_fst_convert_method {n : ConcreteNode} (hn : n.construct = .method) (depth : Nat)
    (s s' : LocalScope) :
    (convert depth n s).map Prod.fst = (convert depth n s').map Prod.fst := by
  cases depth with
  | zero => rfl
  | succ depth =>
    have hmethod : ∀ s, convert (depth + 1) n s =
        (signature (convert depth) n ["name", "parameters"] .empty).bind fun r =>
          n.lines.map fun span =>
            (.node .methodDef (.name (textOf (n.child? "name")) :: r.1) span "", s) := by
      intro s
      simp only [convert, convertNode, hn, method, Outline.bind_apply, inFresh]
      cases signature (convert depth) n ["name", "parameters"] .empty with
      | error e => rfl
      | ok r =>
        simp only [Except.map, Except.bind, build, Outline.bind_apply, Outline.span_apply]
        cases n.lines <;> rfl
    rw [hmethod, hmethod]
    cases signature (convert depth) n ["name", "parameters"] .empty with
    | error e => rfl
    | ok r => cases n.lines <;> rfl

/-- **The frames of local variables are kept apart.** Whatever the scope, a
conversion adds the same names to its innermost frame, loses none and
changes no frame around it; so do the conversions of several nodes, such
as those in the frame of a block. A block or a method adds nothing to the
scope it stands in. A method, and the body of any definition, is built the
same whatever scope stands around it, and stops for the same reason if it
stops. -/
theorem frames_kept_apart (depth : Nat) (n : ConcreteNode) :
    (∃ added : List String, ∀ s t s', convert depth n s = .ok (t, s') →
        s.Grows s' ∧ ∀ x, x ∈ s'.names ↔ x ∈ s.names ∨ x ∈ added) ∧
      (∀ ns s ts s', each (convert depth) ns s = .ok (ts, s') → s.Grows s') ∧
      (n.construct = .block ∨ n.construct = .method →
        ∀ s t s', convert depth n s = .ok (t, s') → s' = s) ∧
      (n.construct = .method →
        ∀ s s', (convert depth n s).map Prod.fst = (convert depth n s').map Prod.fst) ∧
      ∀ k, n.beforeBody? = some k → ∀ s s',
        SameButFirst k ((convert depth n s).map Prod.fst) ((convert depth n s').map Prod.fst) := by
  refine ⟨⟨(Outline.within depth n).exposed, fun s t s' h => ?_⟩, fun ns s ts s' h => each_grows h,
    fun hn s t s' h => ?_, fun hn => map_fst_convert_method hn depth,
    fun k hk => sameButFirst_convert hk depth⟩
  · rw [convert_scope h]
    exact ⟨LocalScope.grows_foldl_declare _ s, LocalScope.mem_names_foldl_declare _ s⟩
  · rw [convert_scope h, exposed_within hn]
    rfl

/-- The method `def m; x; end`. -/
def methodReading : ConcreteNode :=
  { type := "method", children := [
    { type := "identifier", field := some "name", bytes := [0x6d] },
    { type := "identifier", bytes := [0x78] }] }

/-- The class `class A < x; def m; x; end; end`. -/
def classReading : ConcreteNode :=
  { type := "class", children := [
    { type := "constant", field := some "name", bytes := [0x41] },
    { type := "superclass", field := some "superclass", children := [
      { type := "identifier", bytes := [0x78] }] },
    methodReading] }

/-- Where `x` and `y` are local variables the method leaves them so, also in
a frame of its own, and it is built as it is where there is none. So is the
class but for its superclass. -/
theorem readings_apart :
    (∃ t, convert 2 methodReading ⟨["x"], [["y"]]⟩ = .ok (t, ⟨["x"], [["y"]]⟩)) ∧
      (∃ ts s', each (convert 2) [methodReading] (LocalScope.child ⟨["x"], [["y"]]⟩) = .ok (ts, s') ∧
        s'.enclosing = [["x"], ["y"]]) ∧
      (convert 2 methodReading ⟨["x"], [["y"]]⟩).map Prod.fst =
        (convert 2 methodReading .empty).map Prod.fst ∧
      classReading.beforeBody? = some 2 ∧
      SameButFirst 2 ((convert 3 classReading ⟨["x"], [["y"]]⟩).map Prod.fst)
        ((convert 3 classReading .empty).map Prod.fst) := by
  obtain ⟨-, heach, hleft, hsame, -⟩ := frames_kept_apart 2 methodReading
  obtain ⟨-, -, -, -, hbody⟩ := frames_kept_apart 3 classReading
  obtain ⟨t, s', hmethod⟩ : ∃ t s', convert 2 methodReading ⟨["x"], [["y"]]⟩ = .ok (t, s') :=
    ⟨_, _, rfl⟩
  obtain ⟨ts, inner, hlist⟩ : ∃ ts inner, each (convert 2) [methodReading]
      (LocalScope.child ⟨["x"], [["y"]]⟩) = .ok (ts, inner) := ⟨_, _, rfl⟩
  refine ⟨⟨t, ?_⟩, ⟨ts, inner, hlist, (heach _ _ _ _ hlist).enclosing⟩, hsame rfl _ _, rfl,
    hbody 2 rfl _ _⟩
  rw [hmethod, hleft (Or.inr rfl) _ _ _ hmethod]

end Conversion

end ConstGraph
