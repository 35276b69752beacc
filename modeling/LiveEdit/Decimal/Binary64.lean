/-!
# Binary floating point numbers of 64 bits

`Binary64` is a number of the form `m * 2 ^ e`, an infinity, or no number.  `Binary64.ofDecimal`
rounds a decimal to the nearest such number, and a tie goes to the even significand.
-/

namespace LiveEdit

/-- A binary floating point number.  In a finite one the significand is below `2 ^ 53`
and the exponent lies between the two limits below. -/
inductive Binary64 where
  | finite (negative : Bool) (significand : Nat) (exponent : Int)
  | infinite (negative : Bool)
  | nan
  deriving DecidableEq

namespace Binary64

/-- The least exponent. -/
def minExponent : Int := -1074

/-- The greatest exponent. -/
def maxExponent : Int := 971

/-- Every significand is below this power of two. -/
def bound : Nat := Nat.pow 2 53

/-- A quotient rounded to the nearest whole number; a tie goes to the even one. -/
def roundDiv (num den : Nat) : Nat :=
  let q := num / den
  let twice := 2 * (num % den)
  if den < twice ∨ (twice = den ∧ q % 2 = 1) then q + 1 else q

/-- The numerator and the denominator of `num / den / 2 ^ e`. -/
def scaled (num den : Nat) (e : Int) : Nat × Nat :=
  if 0 ≤ e then (num, den * Nat.pow 2 e.toNat) else (num * Nat.pow 2 (-e).toNat, den)

/-- The exponent with which `num / den` has a significand of 53 bits, or the least exponent. -/
def exponentOf (num den : Nat) : Int :=
  let e := (num.log2 : Int) - den.log2 - 53
  let e := if e < minExponent then minExponent else e
  let (n, d) := scaled num den e
  if n / d < bound then e else e + 1

/-- The number nearest to the quotient of two positive numbers. -/
def ofRatio (negative : Bool) (num den : Nat) : Binary64 :=
  let e := exponentOf num den
  let (n, d) := scaled num den e
  let m := roundDiv n d
  let (m, e) := if m = bound then (bound / 2, e + 1) else (m, e)
  if maxExponent < e then infinite negative else finite negative m e

/-- The number nearest to `m * 10 ^ k`.  Decimals far outside the range are not computed. -/
def ofDecimal (negative : Bool) (m : Nat) (k : Int) : Binary64 :=
  let magnitude := k + (Nat.toDigits 10 m).length
  if m = 0 ∨ magnitude < -330 then finite negative 0 minExponent
  else if 310 < magnitude then infinite negative
  else if 0 ≤ k then ofRatio negative (m * Nat.pow 10 k.toNat) 1
  else ofRatio negative m (Nat.pow 10 (-k).toNat)

end Binary64

end LiveEdit
