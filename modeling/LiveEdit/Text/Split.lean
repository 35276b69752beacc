/-!
# Texts with separators

`split` cuts a text at every occurrence of a character.
-/

namespace LiveEdit.Text

/-- The pieces between the occurrences of a character. -/
def split (separator : Char) : List Char → List (List Char)
  | [] => [[]]
  | c :: cs =>
    if c = separator then [] :: split separator cs
    else
      match split separator cs with
      | [] => [[c]]
      | piece :: pieces => (c :: piece) :: pieces

theorem split_ne_nil (separator : Char) (cs : List Char) : split separator cs ≠ [] := by
  cases cs with
  | nil => simp [split]
  | cons c cs =>
    unfold split
    split
    · simp
    · split <;> simp

/-- The pieces of two texts with a separator between them. -/
theorem split_append_cons (separator : Char) (as bs : List Char) :
    split separator (as ++ separator :: bs) = split separator as ++ split separator bs := by
  induction as with
  | nil => simp [split]
  | cons a as ih =>
    simp only [List.cons_append, split]
    split
    · rw [ih, List.cons_append]
    · rw [ih]
      cases h : split separator as with
      | nil => exact absurd h (split_ne_nil _ _)
      | cons p ps => rfl

end LiveEdit.Text
