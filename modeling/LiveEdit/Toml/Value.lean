import LiveEdit.Decimal.Binary64

/-!
# Values of a document

`Toml.Value` is what a TOML document can hold.  A table keeps its entries in order, and no key
occurs twice in a table that was read from a document.
-/

namespace LiveEdit.Toml

/-- A value. -/
inductive Value where
  | string (s : String)
  | integer (i : Int)
  | float (x : Binary64)
  | boolean (b : Bool)
  /-- A date, a time or both, as written. -/
  | dateTime (text : String)
  | array (items : List Value)
  | table (entries : List (String × Value))
  deriving Inhabited

/-- The entries of a table, in order. -/
abbrev Entries := List (String × Value)

/-- A reader takes a value off the front of a text, or refuses the text. -/
abbrev Reader (α : Type) := List Char → Option (α × List Char)

/-- A value that is followed by what the reader leaves. -/
def Reader.map {α β : Type} (f : α → β) (r : Reader α) : Reader β :=
  fun cs => (r cs).map fun p => (f p.1, p.2)

end LiveEdit.Toml
