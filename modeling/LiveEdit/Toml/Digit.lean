import LiveEdit.Toml.Value

/-!
# Digits

Runs of digits of a base.  In numbers, a single underscore can stand between two digits.
-/

namespace LiveEdit.Toml

/-- The value of a hexadecimal digit. -/
def hexDigit? (c : Char) : Option Nat :=
  if c.isDigit then some (c.toNat - '0'.toNat)
  else if 'a' ≤ c && c ≤ 'f' then some (c.toNat - 'a'.toNat + 10)
  else if 'A' ≤ c && c ≤ 'F' then some (c.toNat - 'A'.toNat + 10)
  else none

/-- Whether a character is a digit of a base up to sixteen. -/
def isDigitOf (base : Nat) (c : Char) : Bool := (hexDigit? c).any (· < base)

/-- The digits of a base in front, without the single underscores between them. -/
def digitRun (base : Nat) : List Char → List Char × List Char
  | '_' :: c :: cs =>
    if isDigitOf base c then
      let (ds, rest) := digitRun base cs
      (c :: ds, rest)
    else ([], '_' :: c :: cs)
  | c :: cs =>
    if isDigitOf base c then
      let (ds, rest) := digitRun base cs
      (c :: ds, rest)
    else ([], c :: cs)
  | [] => ([], [])

/-- One digit or more, with single underscores between them. -/
def digits (base : Nat) : Reader (List Char)
  | c :: cs =>
    if isDigitOf base c then
      let (ds, rest) := digitRun base cs
      some (c :: ds, rest)
    else none
  | [] => none

/-- The number that digits write. -/
def ofDigits (base : Nat) (ds : List Char) : Nat :=
  ds.foldl (fun n c => base * n + (hexDigit? c).getD 0) 0

end LiveEdit.Toml
