import LiveEdit.Toml.Digit
import LiveEdit.Toml.Text

/-!
# Strings and keys

There are four forms of strings: in quotes or in single quotes, on one line or between triple
quotes.  The readers of their content start behind the opening quotes and go on until the closing
quotes, one character at a time.  Keys are words, or strings on one line, with dots between them.
-/

namespace LiveEdit.Toml

/-- A character in front of what a reader of characters finds. -/
def prepend (c : Char) (r : Option (List Char × List Char)) : Option (List Char × List Char) :=
  r.map fun p => (c :: p.1, p.2)

/-- The character with a number, if there is one. -/
def scalar? (n : Nat) : Option Char := if h : n.isValidChar then some ⟨n.toUInt32, by
  rw [UInt32.isValidChar, Nat.toUInt32, UInt32.toNat_ofNat_of_lt']
  · exact h
  · rcases h with h | h <;> simp [UInt32.size] <;> omega⟩ else none

/-- The character that a backslash and a letter stand for. -/
def escaped? : Char → Option Char
  | 'b' => some '\x08'
  | 't' => some '\t'
  | 'n' => some '\n'
  | 'f' => some '\x0C'
  | 'r' => some '\r'
  | '"' => some '"'
  | '\\' => some '\\'
  | _ => none

/-- Where a reader of a string stands. -/
inductive StringState where
  | plain
  /-- Behind a backslash. -/
  | backslash
  /-- Inside a character number: the digits to come, one at least, and the value so far. -/
  | number (more : Nat) (value : Nat)
  /-- Between a backslash at the end of a line and that end. -/
  | lineEnd
  /-- In the white space that such a backslash removes. -/
  | gap

/-- Characters that stand for themselves between quotes. -/
def isQuotable (c : Char) : Bool := isPlain c && c != '"' && c != '\\'

/-- The content of a string in quotes. -/
def basicString : StringState → Reader (List Char)
  | .plain, '"' :: cs => some ([], cs)
  | .plain, '\\' :: cs => basicString .backslash cs
  | .plain, c :: cs => if isQuotable c then prepend c (basicString .plain cs) else none
  | .backslash, 'u' :: cs => basicString (.number 3 0) cs
  | .backslash, 'U' :: cs => basicString (.number 7 0) cs
  | .backslash, c :: cs => (escaped? c).bind fun c => prepend c (basicString .plain cs)
  | .number 0 v, c :: cs =>
    ((hexDigit? c).bind fun d => scalar? (16 * v + d)).bind fun c =>
      prepend c (basicString .plain cs)
  | .number (n + 1) v, c :: cs =>
    (hexDigit? c).bind fun d => basicString (.number n (16 * v + d)) cs
  | _, _ => none

/-- Whether white space follows that a backslash at the end of a line removes. -/
def startsGap : List Char → Bool
  | '\r' :: '\n' :: _ => true
  | c :: _ => isBlank c || c == '\n'
  | [] => false

/-- What comes behind a line break that is being removed. -/
def StringState.inGap (cs : List Char) : StringState := if startsGap cs then gap else plain

/-- The content of a string in triple quotes.  Up to two quotes can stand before the closing
ones. -/
def multilineString : StringState → Reader (List Char)
  | .plain, '"' :: '"' :: '"' :: '"' :: '"' :: cs => some (['"', '"'], cs)
  | .plain, '"' :: '"' :: '"' :: '"' :: cs => some (['"'], cs)
  | .plain, '"' :: '"' :: '"' :: cs => some ([], cs)
  | .plain, '"' :: cs => prepend '"' (multilineString .plain cs)
  | .plain, '\n' :: cs => prepend '\n' (multilineString .plain cs)
  | .plain, '\r' :: '\n' :: cs => prepend '\n' (multilineString .plain cs)
  | .plain, '\\' :: cs => multilineString .backslash cs
  | .plain, c :: cs => if isQuotable c then prepend c (multilineString .plain cs) else none
  | .backslash, '\n' :: cs => multilineString (.inGap cs) cs
  | .backslash, '\r' :: '\n' :: cs => multilineString (.inGap cs) cs
  | .backslash, 'u' :: cs => multilineString (.number 3 0) cs
  | .backslash, 'U' :: cs => multilineString (.number 7 0) cs
  | .backslash, c :: cs =>
    if isBlank c then multilineString .lineEnd cs
    else (escaped? c).bind fun c => prepend c (multilineString .plain cs)
  | .number 0 v, c :: cs =>
    ((hexDigit? c).bind fun d => scalar? (16 * v + d)).bind fun c =>
      prepend c (multilineString .plain cs)
  | .number (n + 1) v, c :: cs =>
    (hexDigit? c).bind fun d => multilineString (.number n (16 * v + d)) cs
  | .lineEnd, '\n' :: cs => multilineString (.inGap cs) cs
  | .lineEnd, '\r' :: '\n' :: cs => multilineString (.inGap cs) cs
  | .lineEnd, c :: cs => if isBlank c then multilineString .lineEnd cs else none
  | .gap, '\r' :: '\n' :: cs => multilineString (.inGap cs) cs
  | .gap, c :: cs =>
    if isBlank c || c == '\n' then multilineString (.inGap cs) cs else none
  | _, [] => none

/-- The content of a string in single quotes, in which nothing is escaped. -/
def literalString : Reader (List Char)
  | '\'' :: cs => some ([], cs)
  | c :: cs => if isPlain c then prepend c (literalString cs) else none
  | [] => none

/-- The content of a string in triple single quotes. -/
def multilineLiteral : Reader (List Char)
  | '\'' :: '\'' :: '\'' :: '\'' :: '\'' :: cs => some (['\'', '\''], cs)
  | '\'' :: '\'' :: '\'' :: '\'' :: cs => some (['\''], cs)
  | '\'' :: '\'' :: '\'' :: cs => some ([], cs)
  | '\n' :: cs => prepend '\n' (multilineLiteral cs)
  | '\r' :: '\n' :: cs => prepend '\n' (multilineLiteral cs)
  | c :: cs => if isPlain c then prepend c (multilineLiteral cs) else none
  | [] => none

/-- A text without a line break in front: the one behind opening triple quotes does not count. -/
def dropLineBreak (cs : List Char) : List Char := (lineBreak? cs).getD cs

/-- A string of any form. -/
def string : Reader String
  | '"' :: '"' :: '"' :: cs => (multilineString .plain).map String.ofList (dropLineBreak cs)
  | '"' :: cs => (basicString .plain).map String.ofList cs
  | '\'' :: '\'' :: '\'' :: cs => multilineLiteral.map String.ofList (dropLineBreak cs)
  | '\'' :: cs => literalString.map String.ofList cs
  | _ => none

/-! ### Keys -/

/-- Characters of a key without quotes. -/
def isKeyChar (c : Char) : Bool := c.isAlphanum || c == '_' || c == '-'

/-- One segment of a key. -/
def simpleKey : Reader String
  | '"' :: cs => (basicString .plain).map String.ofList cs
  | '\'' :: cs => literalString.map String.ofList cs
  | cs =>
    let (word, rest) := cs.span isKeyChar
    if word.isEmpty then none else some (String.ofList word, rest)

/-- A key of one or more segments with dots between them, and at most as many as given. -/
def keyPath : Nat → Reader (List String)
  | 0, _ => none
  | limit + 1, cs => do
    let (k, cs) ← simpleKey (skipBlanks cs)
    match skipBlanks cs with
    | '.' :: cs => do
      let (ks, cs) ← keyPath limit cs
      some (k :: ks, cs)
    | cs => some ([k], cs)

end LiveEdit.Toml
