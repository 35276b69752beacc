import LiveEdit.Toml.Value

/-!
# Blanks and comments

What stands between the values of a TOML document and means nothing.
-/

namespace LiveEdit.Toml

/-- Blanks inside a line. -/
def isBlank (c : Char) : Bool := c == ' ' || c == '\t'

/-- Characters that can stand in a comment: no control characters but the tab. -/
def isPlain (c : Char) : Bool :=
  c == '\t' || (0x20 ≤ c.toNat && c.toNat ≤ 0x7E) || 0x80 ≤ c.toNat

/-- A text without the blanks in front. -/
def skipBlanks (cs : List Char) : List Char := cs.dropWhile isBlank

/-- What follows a line break. -/
def lineBreak? : List Char → Option (List Char)
  | '\n' :: cs => some cs
  | '\r' :: '\n' :: cs => some cs
  | _ => none

/-- What follows the rest of a line: blanks, perhaps a comment, and a line break or the end. -/
def lineEnd? (cs : List Char) : Option (List Char) :=
  let cs := match skipBlanks cs with
    | '#' :: cs => cs.dropWhile isPlain
    | cs => cs
  if cs.isEmpty then some [] else lineBreak? cs

/-- A text without the blanks, line breaks and comments in front.  A comment has to end with a
line break. -/
def skipFiller? (inComment : Bool) : List Char → Option (List Char)
  | [] => if inComment then none else some []
  | '\n' :: cs => skipFiller? false cs
  | '\r' :: cs =>
    match cs with
    | '\n' :: cs => skipFiller? false cs
    | _ => none
  | c :: cs =>
    if inComment then if isPlain c then skipFiller? true cs else none
    else if isBlank c then skipFiller? false cs
    else if c == '#' then skipFiller? true cs
    else some (c :: cs)

end LiveEdit.Toml
