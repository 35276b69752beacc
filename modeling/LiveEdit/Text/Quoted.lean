import LiveEdit.Text.Printable

/-!
# Quoted text

`quoted` writes a text between quotes so that every character can be seen.  Quotes, backslashes
and the common control characters are written with a backslash, and characters that cannot be
seen by their number in hexadecimal.
-/

namespace LiveEdit.Text

/-- A code point in hexadecimal, between braces. -/
def escapedNumber (c : Char) : String :=
  "\\u\x7b" ++ String.ofList (Nat.toDigits 16 c.toNat) ++ "\x7d"

/-- A character inside quotes. -/
def quotedChar (c : Char) : String :=
  match c with
  | '\x00' => "\\0"
  | '\t' => "\\t"
  | '\r' => "\\r"
  | '\n' => "\\n"
  | '"' => "\\\""
  | '\\' => "\\\\"
  | _ => if isVisible c then String.singleton c else escapedNumber c

/-- A text between quotes. -/
def quoted (s : String) : String := "\"" ++ String.join (s.toList.map quotedChar) ++ "\""

end LiveEdit.Text
