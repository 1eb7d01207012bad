/-!
# Double-precision numbers

A double is a sign, a mantissa of at most 53 bits and a power of two. A
decimal is read as the double nearest to it, and of two that are equally
near as the even one. A double is written with the fewest digits that read
back as it, and of those with the ones nearest to it: positionally as long
as its first digit stands between the fourth place behind the point and
the sixteenth before it, and with an exponent otherwise.
-/

namespace ConstGraph

/-- A double-precision number. -/
inductive Binary64 where
  /-- The mantissa times a power of two, or the negative of that. -/
  | finite (negative : Bool) (mantissa : Nat) (exponent : Int)
  /-- Beyond every finite number. -/
  | infinite (negative : Bool)
  /-- Not a number. -/
  | notANumber
  deriving DecidableEq, Repr, Inhabited

namespace Binary64

/-- The bits of a mantissa. -/
def mantissaBits : Nat := 53

/-- The least exponent. -/
def minExponent : Int := -1074

/-- The greatest exponent. -/
def maxExponent : Int := 971

/-! ## Reading -/

/-- The quotient rounded to the nearest number, a half to the even one. -/
def roundDiv (n d : Nat) : Nat :=
  if 2 * (n % d) < d ∨ 2 * (n % d) = d ∧ n / d % 2 = 0 then n / d else n / d + 1

/-- A fraction over a power of two. -/
def scaled (n d : Nat) (e : Int) : Nat × Nat :=
  if 0 ≤ e then (n, d <<< e.toNat) else (n <<< (-e).toNat, d)

/-- The exponent a fraction is written with: the least one for which the
mantissa has no bits too many. -/
def exponentOf (n d : Nat) : Int :=
  let e := max ((n.log2 : Int) - d.log2 - mantissaBits) minExponent
  let (a, b) := scaled n d e
  if b <<< mantissaBits ≤ a then e + 1 else e

/-- The double nearest to a fraction. -/
def ofRatio (negative : Bool) (n d : Nat) : Binary64 :=
  if n = 0 then finite negative 0 minExponent
  else
    let e := exponentOf n d
    let (a, b) := scaled n d e
    let m := roundDiv a b
    let (m, e) := if m = 1 <<< mantissaBits then (m / 2, e + 1) else (m, e)
    if maxExponent < e then infinite negative else finite negative m e

/-- The number of decimal digits. -/
def digitCount (n : Nat) : Nat := (Nat.toDigits 10 n).length

/-- The double nearest to `n * 10 ^ x`. -/
def ofDecimal (negative : Bool) (n : Nat) (x : Int) : Binary64 :=
  let magnitude := (digitCount n : Int) + x
  if n ≠ 0 ∧ 310 < magnitude then infinite negative
  else if n = 0 ∨ magnitude < -330 then finite negative 0 minExponent
  else if 0 ≤ x then ofRatio negative (n * Nat.pow 10 x.toNat) 1
  else ofRatio negative n (Nat.pow 10 (-x).toNat)

/-! ## Writing -/

/-- The fraction a mantissa and an exponent stand for. -/
def ratio (m : Nat) (e : Int) : Nat × Nat :=
  if 0 ≤ e then (m <<< e.toNat, 1) else (m, 1 <<< (-e).toNat)

/-- The number of zeros between the point and the first digit of a fraction
below one, of which at most so many are counted. -/
def leadingZeros (n d : Nat) : Nat → Nat
  | 0 => 0
  | fuel + 1 => if d ≤ n * 10 then 0 else leadingZeros (n * 10) d fuel + 1

/-- The place of the point before the first digit of a fraction. -/
def pointOf (n d : Nat) : Int :=
  if d ≤ n then digitCount (n / d) else -(leadingZeros n d 400 : Int)

/-- The one of two neighbours with some number of digits that reads back as
the double, if one does; the nearer one if both do. -/
def shortestOf? (m : Nat) (e : Int) (x : Int) : Option Nat :=
  let (n, d) := ratio m e
  let (a, b) := if 0 ≤ x then (n, d * Nat.pow 10 x.toNat) else (n * Nat.pow 10 (-x).toNat, d)
  let near := roundDiv a b
  let far := if near = a / b then near + 1 else a / b
  [near, far].find? fun c => ofDecimal false c x == finite false m e

/-- The digits of a double and the power of ten they are times of: as few
digits as possible, of which there are `count` at least. -/
def shortestFrom (m : Nat) (e point : Int) (count : Nat) : Nat → Nat × Int
  | 0 => (0, 0)
  | fuel + 1 =>
    let x := point - count
    match shortestOf? m e x with
    | some c => (c, x)
    | none => shortestFrom m e point (count + 1) fuel

/-- The fewest digits that read back as a double, and the power of ten they
are times of. Seventeen digits always do. -/
def shortest (m : Nat) (e : Int) : Nat × Int :=
  let (n, d) := ratio m e
  shortestFrom m e (pointOf n d) 1 17

/-- Digits with the point in front of place `point`. -/
def positional (ds : List Char) (point : Int) : List Char :=
  if point ≤ 0 then '0' :: '.' :: List.replicate (-point).toNat '0' ++ ds
  else if ds.length ≤ point.toNat then
    ds ++ List.replicate (point.toNat - ds.length) '0' ++ ['.', '0']
  else ds.take point.toNat ++ '.' :: ds.drop point.toNat

/-- Digits with an exponent of two digits at least. -/
def scientific (ds : List Char) (x : Int) : List Char :=
  let power := Nat.toDigits 10 x.natAbs
  let fraction := if ds.length ≤ 1 then [] else '.' :: ds.drop 1
  ds.take 1 ++ fraction ++ ['e', if x < 0 then '-' else '+'] ++
    List.replicate (2 - power.length) '0' ++ power

/-- A mantissa and an exponent as text. -/
def finiteText (m : Nat) (e : Int) : List Char :=
  if m = 0 then ['0', '.', '0']
  else
    let (c, x) := shortest m e
    let ds := Nat.toDigits 10 c
    let point := x + ds.length
    let ds := (ds.reverse.dropWhile (· == '0')).reverse
    if -4 < point ∧ point ≤ 16 then positional ds point else scientific ds (point - 1)

/-- The number as text, where `infinity` and `nan` stand for what is not
finite. -/
def textWith (infinity nan : String) : Binary64 → String
  | finite negative m e => (if negative then "-" else "") ++ String.ofList (finiteText m e)
  | infinite negative => (if negative then "-" else "") ++ infinity
  | notANumber => nan

end Binary64

end ConstGraph
