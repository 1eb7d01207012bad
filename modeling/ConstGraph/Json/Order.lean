import ConstGraph.Json.Value

/-!
# The order of values

Two values are equal if they hold the same: numbers by their size whatever
they are written like, a truth value being the number zero or one, and
objects by their fields in whatever order. The order sets the sorts apart,
and goes by size, by text and item by item within them.

Both are read off a value's key, a list of marks in which an array or
object is closed by the least mark there is; so the laws of the order are
those of lists.
-/

namespace ConstGraph

/-- One entry of a key: a sort, and the size or the text of what is of it. -/
structure KeyMark where
  /-- The sort. -/
  rank : Nat
  /-- The size of a number, in units of the least double. -/
  size : Int := 0
  /-- The text of a string or of a field name. -/
  text : String := ""
  deriving BEq, ReflBEq, LawfulBEq, Repr

namespace KeyMark

/-- Marks are ordered by sort, then by size, then by text. -/
def order : KeyMark → KeyMark → Ordering :=
  compareLex (compareOn rank) (compareLex (compareOn size) (compareOn text))

instance : Ord KeyMark := ⟨order⟩

instance : Std.TransOrd KeyMark :=
  inferInstanceAs (Std.TransCmp
    (compareLex (compareOn rank) (compareLex (compareOn size) (compareOn text))))

instance : Std.LawfulEqOrd KeyMark where
  eq_of_compare {a b} h := by
    obtain ⟨h, hs⟩ := Ordering.then_eq_eq.1 h
    obtain ⟨hn, ht⟩ := Ordering.then_eq_eq.1 hs
    have h := Std.LawfulEqOrd.eq_of_compare h
    have hn := Std.LawfulEqOrd.eq_of_compare hn
    have ht := Std.LawfulEqOrd.eq_of_compare ht
    cases a
    cases b
    simp_all

/-- The end of an array or object. -/
def close : KeyMark := { rank := 0 }

end KeyMark

namespace Json

/-- The size of a double in units of the least one. -/
def sizeOf (negative : Bool) (mantissa : Nat) (exponent : Int) : Int :=
  let n : Int := (mantissa <<< (exponent - Binary64.minExponent).toNat : Nat)
  if negative then -n else n

/-- The mark of a double. -/
def realMark : Binary64 → KeyMark
  | .infinite true => { rank := 2 }
  | .finite negative m e => { rank := 3, size := sizeOf negative m e }
  | .infinite false => { rank := 4 }
  | .notANumber => { rank := 5 }

/-- The mark of an integer. -/
def intMark (n : Int) : KeyMark :=
  { rank := 3, size := n * (1 <<< Binary64.minExponent.natAbs : Nat) }

/-- The fields by name. -/
def sortFields (fs : List (String × List KeyMark)) : List (String × List KeyMark) :=
  fs.mergeSort fun a b => (compare a.1 b.1).isLE

mutual

/-- The key of a value. -/
def key : Json → List KeyMark
  | null => [{ rank := 1 }]
  | bool b => [intMark (if b then 1 else 0)]
  | int n => [intMark n]
  | real x => [realMark x]
  | str s => [{ rank := 6, text := s }]
  | arr xs => { rank := 7 } :: itemKeys xs
  | obj fs =>
    { rank := 8 } :: ((sortFields (fieldKeys fs)).flatMap fun f =>
      { rank := 6, text := f.1 } :: f.2) ++ [KeyMark.close]

/-- The keys of items and the mark that closes them. -/
def itemKeys : List Json → List KeyMark
  | [] => [KeyMark.close]
  | x :: xs => x.key ++ itemKeys xs

/-- The keys of the values of fields. -/
def fieldKeys : List (String × Json) → List (String × List KeyMark)
  | [] => []
  | (k, x) :: fs => (k, x.key) :: fieldKeys fs

end

/-- Two values hold the same. Texts and integers are compared as they are,
which comes to the same and is faster. -/
def same : Json → Json → Bool
  | str a, str b => a == b
  | int a, int b => a == b
  | a, b => a.key == b.key

/-- The order of two values. Texts are compared as they are, which comes to
the same and is faster. -/
def order : Json → Json → Ordering
  | str a, str b => compare a b
  | a, b => compare a.key b.key

/-- The unit of the sizes of integers is not zero. -/
theorem unit_ne_zero : ((1 <<< Binary64.minExponent.natAbs : Nat) : Int) ≠ 0 := by
  decide

theorem same_eq_key (a b : Json) : a.same b = (a.key == b.key) := by
  cases a <;> cases b <;> simp only [same]
  all_goals
    rw [Bool.eq_iff_iff]
    simp only [beq_iff_eq, key, intMark, List.cons.injEq, KeyMark.mk.injEq, and_true, true_and]
  exact (Int.mul_eq_mul_right_iff unit_ne_zero).symm

theorem order_eq_key (a b : Json) : a.order b = compare a.key b.key := by
  cases a <;> cases b <;> simp only [order]
  simp only [key, List.compare_cons_cons, List.compare_nil_nil]
  change _ = (KeyMark.order _ _).then _
  simp [KeyMark.order, compareLex, compareOn]

instance : BEq Json := ⟨same⟩

instance : Ord Json := ⟨order⟩

theorem compare_eq_key (a b : Json) : compare a b = compareOn key a b := order_eq_key a b

instance transOrd : Std.TransOrd Json where
  eq_swap {a b} := by
    rw [compare_eq_key, compare_eq_key]
    exact Std.OrientedCmp.eq_swap
  isLE_trans {a b c} hab hbc := by
    rw [compare_eq_key] at hab hbc ⊢
    exact Std.TransCmp.isLE_trans hab hbc

instance lawfulBEqOrd : Std.LawfulBEqOrd Json where
  compare_eq_iff_beq {a b} := by
    rw [compare_eq_key]
    change compare a.key b.key = .eq ↔ a.same b = true
    rw [same_eq_key]
    exact Std.LawfulBEqOrd.compare_eq_iff_beq

end Json

end ConstGraph
