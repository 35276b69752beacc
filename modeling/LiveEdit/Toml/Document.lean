import LiveEdit.Toml.DateTime
import LiveEdit.Toml.Number
import LiveEdit.Toml.String
import LiveEdit.Toml.Table

/-!
# Documents

`Toml.value` reads a value, `Line.ofText?` splits a document into its lines, and `Toml.read` puts
the lines together to the entries of the root table.

Arrays and inline tables can be nested `maxNesting` deep, and a dotted key can have as many
segments.
-/

namespace LiveEdit.Toml

/-- How deep arrays and inline tables can be nested. -/
def maxNesting : Nat := 79

/-- A dotted key, split into the path to a table and the last segment. -/
def dottedKey : Reader (List String × String) := fun cs => do
  let (ks, cs) ← keyPath maxNesting cs
  let last ← ks.getLast?
  some ((ks.dropLast, last), cs)

/-- A key, `=` and a value. -/
def pair (value : Reader Value) : Reader (List String × String × Value) := fun cs => do
  let ((path, key), cs) ← dottedKey cs
  match cs with
  | '=' :: cs => do
    let (v, cs) ← value (skipBlanks cs)
    some ((path, key, v), cs)
  | _ => none

/-- The rest of an array behind its opening bracket or a comma.  `fuel` is a bound on the number of
items. -/
def arrayRest (value : Reader Value) : Nat → Reader (List Value)
  | 0, _ => none
  | fuel + 1, cs => do
    match ← skipFiller? false cs with
    | ']' :: cs => some ([], cs)
    | cs => do
      let (v, cs) ← value cs
      match ← skipFiller? false cs with
      | ',' :: cs => do
        let (vs, cs) ← arrayRest value fuel cs
        some (v :: vs, cs)
      | ']' :: cs => some ([v], cs)
      | _ => none

/-- The entries of an inline table behind its opening brace or a comma.  `fuel` is a bound on
their number. -/
def pairsRest (value : Reader Value) : Nat → Reader (List (List String × String × Value))
  | 0, _ => none
  | fuel + 1, cs => do
    let (kv, cs) ← pair value cs
    match skipBlanks cs with
    | ',' :: cs => do
      let (kvs, cs) ← pairsRest value fuel cs
      some (kv :: kvs, cs)
    | '}' :: cs => some ([kv], cs)
    | _ => none

/-- An inline table behind its opening brace. -/
def inlineTable (value : Reader Value) : Reader Value := fun cs =>
  match skipBlanks cs with
  | '}' :: cs => some (.table [], cs)
  | cs => do
    let (kvs, rest) ← pairsRest value cs.length cs
    some (.table (Item.toEntries (← Item.insertAll? [] kvs)), rest)

/-- A value that starts with a sign or a digit. -/
def number : Reader Value := fun cs =>
  match dateTime? cs with
  | some rest => some (.dateTime (String.ofList (cs.take (cs.length - rest.length))), rest)
  | none =>
    (float.map Value.float cs).or (integer.map Value.integer cs)

/-- A value in which arrays and inline tables are nested `depth` deep at most. -/
def value (depth : Nat) : Reader Value
  | '"' :: cs => string.map .string ('"' :: cs)
  | '\'' :: cs => string.map .string ('\'' :: cs)
  | '[' :: cs =>
    match depth with
    | 0 => none
    | depth + 1 => (arrayRest (value depth) (cs.length + 1)).map .array cs
  | '{' :: cs =>
    match depth with
    | 0 => none
    | depth + 1 => inlineTable (value depth) cs
  | 't' :: 'r' :: 'u' :: 'e' :: cs => some (.boolean true, cs)
  | 'f' :: 'a' :: 'l' :: 's' :: 'e' :: cs => some (.boolean false, cs)
  | cs => number cs

/-- The lines of a document that are not blank. -/
inductive Line where
  /-- A key and its value. -/
  | pair (path : List String) (key : String) (v : Value)
  /-- The header of a table. -/
  | table (path : List String) (key : String)
  /-- The header of an element of an array of tables. -/
  | element (path : List String) (key : String)

/-- A header behind its opening bracket, with the rest of its line. -/
def header (closing : List Char) : Reader (List String × String) := fun cs => do
  let (k, cs) ← dottedKey cs
  if closing.isPrefixOf cs then some (k, ← lineEnd? (cs.drop closing.length)) else none

/-- A line, or nothing if it is blank. -/
def line : Reader (Option Line)
  | '[' :: '[' :: cs => do
    let ((path, key), cs) ← header [']', ']'] cs
    some (some (.element path key), cs)
  | '[' :: cs => do
    let ((path, key), cs) ← header [']'] cs
    some (some (.table path key), cs)
  | c :: cs =>
    if c == '#' || c == '\n' || c == '\r' then (lineEnd? (c :: cs)).map fun cs => (none, cs)
    else do
      let ((path, key, v), cs) ← pair (value maxNesting) (c :: cs)
      some (some (.pair path key v), ← lineEnd? cs)
  | [] => none

/-- The lines of a text.  `fuel` is a bound on their number. -/
def lines : Nat → List Char → Option (List Line)
  | 0, _ => none
  | fuel + 1, cs =>
    match skipBlanks cs with
    | [] => some []
    | cs => do
      let (l, rest) ← line cs
      let ls ← lines fuel rest
      some (l.toList ++ ls)

/-- A header with the entries below it.  The first section of a document has no header. -/
structure Section where
  header : Option Line
  entries : List (List String × String × Value)

/-- The sections of a document, given its lines. -/
def sections : List Line → List Section
  | [] => [⟨none, []⟩]
  | .pair path key v :: ls =>
    match sections ls with
    | s :: ss => ⟨s.header, (path, key, v) :: s.entries⟩ :: ss
    | [] => [⟨none, [(path, key, v)]⟩]
  | l :: ls => ⟨none, []⟩ :: match sections ls with
    | s :: ss => ⟨some l, s.entries⟩ :: ss
    | [] => [⟨some l, []⟩]

/-- The root table with one more section. -/
def Section.addTo? (s : Section) (root : Item.Entries) : Option Item.Entries :=
  match s.header with
  | some (.table path key) => Item.openTable? root path key s.entries
  | some (.element path key) => Item.openElement? root path key s.entries
  | _ => Item.insertAll? root s.entries

/-- The entries of the root table, or nothing if the text is not a TOML document.  A byte order
mark in front does not count. -/
def read (text : String) : Option Entries := do
  let cs := match text.toList with
    | '\uFEFF' :: cs => cs
    | cs => cs
  let ls ← lines (cs.length + 1) cs
  let root ← (sections ls).foldlM (fun root s => s.addTo? root) []
  some (Item.toEntries root)

end LiveEdit.Toml
