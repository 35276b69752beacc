import LiveEdit.Decimal.Binary64

/-!
# The shortest decimal of a binary number

`Shortest.decimal?` finds, for a positive number `m * 2 ^ e`, the decimal with the fewest digits
among those that are rounded to it, and of these the nearest.  `Binary64.render` writes it without
an exponent and with at least one digit on each side of the point.
-/

namespace LiveEdit

namespace Shortest

/-- The value of a number and the ends of the interval that is rounded to it, over one
denominator.  The ends belong to the interval if the significand is even. -/
structure Interval where
  low : Nat
  value : Nat
  high : Nat
  den : Nat
  closed : Bool

/-- The interval that is rounded to `m * 2 ^ e`.  Below a power of two the numbers lie twice as
close. -/
def interval (m : Nat) (e : Int) : Interval :=
  let down := if m = Binary64.bound / 2 ∧ Binary64.minExponent < e then 1 else 2
  let up := Nat.pow 2 (e - 2).toNat
  { low := (4 * m - down) * up
    value := 4 * m * up
    high := (4 * m + 2) * up
    den := Nat.pow 2 (2 - e).toNat
    closed := m % 2 == 0 }

/-- The position of the leading digit of a positive quotient: the quotient lies between that power
of ten and the next. -/
def leadingPlace (num den : Nat) : Int :=
  if den ≤ num then (Nat.toDigits 10 (num / den)).length - 1
  else -(Nat.toDigits 10 ((den - 1) / num)).length

/-- Whether `c * 10 ^ place` lies in the interval. -/
def Interval.contains (i : Interval) (c : Nat) (place : Int) : Bool :=
  let x := c * Nat.pow 10 place.toNat * i.den
  let unit := Nat.pow 10 (-place).toNat
  if i.closed then i.low * unit ≤ x && x ≤ i.high * unit
  else i.low * unit < x && x < i.high * unit

/-- How far `c * 10 ^ place` is from the value, in units that depend on the place only. -/
def Interval.distance (i : Interval) (c : Nat) (place : Int) : Nat :=
  let x := c * Nat.pow 10 place.toNat * i.den
  let value := i.value * Nat.pow 10 (-place).toNat
  (x - value) + (value - x)

/-- The multiple of `10 ^ place` that lies in the interval, if there is one: the nearer of the two
neighbours of the value, and the greater one if both are as near. -/
def onGrid? (i : Interval) (place : Int) : Option Nat :=
  let below := i.value * Nat.pow 10 (-place).toNat / (i.den * Nat.pow 10 place.toNat)
  let above := below + 1
  match i.contains below place, i.contains above place with
  | true, true => some (if i.distance below place < i.distance above place then below else above)
  | true, false => some below
  | false, true => some above
  | false, false => none

/-- The digits and the place of the last digit of the shortest decimal of `m * 2 ^ e`. -/
def decimal? (m : Nat) (e : Int) : Option (Nat × Int) :=
  let i := interval m e
  let leading := leadingPlace i.value i.den
  (List.range 17).findSome? fun (k : Nat) =>
    (onGrid? i (leading - k)).map fun c => (c, leading - k)

/-- Digits without zeros at the end, and the place of the last one. -/
def stripZeros (digits : List Char) (place : Int) : List Char × Int :=
  let kept := (digits.reverse.dropWhile (· == '0')).reverse
  (kept, place + (digits.length - kept.length : Nat))

/-- Digits with the last one at a place, written with a point and without an exponent. -/
def positional (digits : List Char) (place : Int) : List Char :=
  if 0 ≤ place then digits ++ List.replicate place.toNat '0' ++ ['.', '0']
  else
    let behind := (-place).toNat
    let padded := List.replicate (behind + 1 - digits.length) '0' ++ digits
    padded.take (padded.length - behind) ++ '.' :: padded.drop (padded.length - behind)

end Shortest

namespace Binary64

/-- A positive finite number with the fewest digits. -/
def renderMagnitude (m : Nat) (e : Int) : String :=
  match Shortest.decimal? m e with
  | some (c, place) =>
    let (digits, place) := Shortest.stripZeros (Nat.toDigits 10 c) place
    String.ofList (Shortest.positional digits place)
  | none => "0.0"

/-- A number as text, with the fewest digits that are read as that number. -/
def render : Binary64 → String
  | finite negative m e =>
    (if negative then "-" else "") ++ if m = 0 then "0.0" else renderMagnitude m e
  | infinite negative => if negative then "-inf" else "inf"
  | nan => "NaN"

end Binary64

end LiveEdit
