import LiveEdit.Toml.Digit

/-!
# Dates and times

A date, a time of day, or both with an optional offset behind them.  The functions give what
follows the value in the text, or nothing if no valid value stands there.
-/

namespace LiveEdit.Toml

/-- The number that decimal digits write, if all of the characters are digits. -/
def decimal? (cs : List Char) : Option Nat :=
  if cs.all Char.isDigit then some (ofDigits 10 cs) else none

/-- Years with a day more. -/
def isLeapYear (year : Nat) : Bool := year % 4 == 0 && (year % 100 != 0 || year % 400 == 0)

/-- The number of days in a month. -/
def daysIn (year month : Nat) : Nat :=
  if month = 2 then if isLeapYear year then 29 else 28
  else if month = 4 ∨ month = 6 ∨ month = 9 ∨ month = 11 then 30
  else 31

/-- A date, as in `2024-02-29`. -/
def date? : List Char → Option (List Char)
  | y₁ :: y₂ :: y₃ :: y₄ :: '-' :: m₁ :: m₂ :: '-' :: d₁ :: d₂ :: cs => do
    let year ← decimal? [y₁, y₂, y₃, y₄]
    let month ← decimal? [m₁, m₂]
    let day ← decimal? [d₁, d₂]
    if 1 ≤ month ∧ month ≤ 12 ∧ 1 ≤ day ∧ day ≤ daysIn year month then some cs else none
  | _ => none

/-- What follows a fraction of a second; the fraction can be missing. -/
def afterFraction : List Char → List Char
  | '.' :: c :: cs => if c.isDigit then cs.dropWhile Char.isDigit else '.' :: c :: cs
  | cs => cs

/-- A time of day, as in `23:59:60` or `07:32:00.5`. -/
def time? : List Char → Option (List Char)
  | h₁ :: h₂ :: ':' :: m₁ :: m₂ :: ':' :: s₁ :: s₂ :: cs => do
    let hour ← decimal? [h₁, h₂]
    let minute ← decimal? [m₁, m₂]
    let second ← decimal? [s₁, s₂]
    if hour ≤ 23 ∧ minute ≤ 59 ∧ second ≤ 60 then some (afterFraction cs) else none
  | _ => none

/-- An offset, as in `Z` or `+01:30`. -/
def offset? : List Char → Option (List Char)
  | 'Z' :: cs | 'z' :: cs => some cs
  | s :: h₁ :: h₂ :: ':' :: m₁ :: m₂ :: cs => do
    let hour ← decimal? [h₁, h₂]
    let minute ← decimal? [m₁, m₂]
    if (s = '+' ∨ s = '-') ∧ hour ≤ 23 ∧ minute ≤ 59 then some cs else none
  | _ => none

/-- What follows a time with its offset, behind the mark between date and time. -/
def timeOfDate? : List Char → Option (List Char)
  | 'T' :: cs | 't' :: cs | ' ' :: cs => (time? cs).map fun cs => (offset? cs).getD cs
  | _ => none

/-- A date, a time, or both. -/
def dateTime? (cs : List Char) : Option (List Char) :=
  match date? cs with
  | some cs => some ((timeOfDate? cs).getD cs)
  | none => time? cs

end LiveEdit.Toml
