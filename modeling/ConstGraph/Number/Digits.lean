/-!
# Long integers

An integer is read and written only up to a number of digits.
-/

namespace ConstGraph

/-- The most digits an integer is written with. -/
def maxWrittenDigits : Nat := 4300

/-- The integer has too many digits to be written. -/
def isOverlong (n : Int) : Bool := Nat.pow 10 maxWrittenDigits ≤ n.natAbs

/-- An integer of ten digits at most can be written. -/
theorem isOverlong_eq_false {n : Int} (h : n.natAbs < 10000000000) : isOverlong n = false := by
  -- said of any number of digits, so that the power is not computed
  have hpow : ∀ k, 10 ≤ k → 10000000000 ≤ Nat.pow 10 k :=
    fun k hk => Nat.le_trans (by decide : 10000000000 ≤ Nat.pow 10 10)
      (Nat.pow_le_pow_right (by decide) hk)
  have hlimit := hpow maxWrittenDigits (by decide)
  exact decide_eq_false (Nat.not_le.2 (Nat.lt_of_lt_of_le h hlimit))

/-- What is said of an integer that is too long to be written. -/
def overlongMessage : String :=
  s!"Exceeds the limit ({maxWrittenDigits} digits) for integer string conversion; " ++
    "use sys.set_int_max_str_digits() to increase the limit"

end ConstGraph
