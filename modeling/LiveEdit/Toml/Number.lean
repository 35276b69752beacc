import LiveEdit.Toml.Digit

/-!
# Numbers

Whole numbers have to fit into 64 bits.  A floating point number has a fraction, an exponent or
both, or is one of the words `inf` and `nan`; one that is too great to be finite is refused, unless
it is negative.
-/

namespace LiveEdit.Toml

/-- Whether a minus stands in front, and what follows the sign. -/
def sign : List Char → Bool × List Char
  | '+' :: cs => (false, cs)
  | '-' :: cs => (true, cs)
  | cs => (false, cs)

/-- The decimal digits of a whole number.  No zero stands in front of other digits. -/
def wholeDigits : Reader (List Char)
  | '0' :: cs => some (['0'], cs)
  | cs => digits 10 cs

/-- A whole number that fits into 64 bits. -/
def inRange? (i : Int) : Option Int :=
  if Int64.minValue.toInt ≤ i ∧ i ≤ Int64.maxValue.toInt then some i else none

/-- A whole number of a base, behind its mark. -/
def basedInteger (base : Nat) : Reader Int := fun cs => do
  let (ds, cs) ← digits base cs
  let i ← inRange? (ofDigits base ds)
  some (i, cs)

/-- A whole number. -/
def integer : Reader Int
  | '0' :: 'x' :: cs => basedInteger 16 cs
  | '0' :: 'o' :: cs => basedInteger 8 cs
  | '0' :: 'b' :: cs => basedInteger 2 cs
  | cs => do
    let (negative, cs) := sign cs
    let (ds, cs) ← wholeDigits cs
    let i ← inRange? (if negative then -ofDigits 10 ds else ofDigits 10 ds)
    some (i, cs)

/-- The digits behind a point. -/
def fraction : Reader (List Char)
  | '.' :: cs => digits 10 cs
  | _ => none

/-- The power of ten behind an `e`. -/
def exponent : Reader Int
  | 'e' :: cs | 'E' :: cs => do
    let (negative, cs) := sign cs
    let (ds, cs) ← digits 10 cs
    some (if negative then -ofDigits 10 ds else ofDigits 10 ds, cs)
  | _ => none

/-- The number `digits * 10 ^ k`, unless it is too great. -/
def finiteFloat? (negative : Bool) (ds : List Char) (k : Int) : Option Binary64 :=
  let x := Binary64.ofDecimal negative (ofDigits 10 ds) k
  if x = .infinite false then none else some x

/-- A floating point number. -/
def float : Reader Binary64 := fun cs =>
  let (negative, cs) := sign cs
  match cs with
  | 'i' :: 'n' :: 'f' :: cs => some (.infinite negative, cs)
  | 'n' :: 'a' :: 'n' :: cs => some (.nan, cs)
  | cs => do
    let (whole, cs) ← wholeDigits cs
    match fraction cs with
    | some (part, cs) => do
      let (k, cs) := (exponent cs).getD (0, cs)
      let x ← finiteFloat? negative (whole ++ part) (k - part.length)
      some (x, cs)
    | none => do
      let (k, cs) ← exponent cs
      let x ← finiteFloat? negative whole k
      some (x, cs)

end LiveEdit.Toml
