import LiveEdit.Toml.Value

/-!
# Tables in the making

The entries of a table can be spread over a document: by dotted keys, and by headers of the table
or of the tables inside it.  While a document is read, each table keeps its `Standing`, which says
what may still be added to it.

* `Item.insert?` adds a value under a dotted key.
* `Item.openTable?` and `Item.openElement?` add what stands below a header.
* `Item.toValue` forgets the standing when the document is complete.
-/

namespace LiveEdit.Toml

/-- How a table came to be there. -/
inductive Standing where
  /-- It has a header of its own, or is the root, or an element of an array of tables. -/
  | stated
  /-- It lies on the path of the header of another table. -/
  | implied
  /-- It lies on the path of a dotted key. -/
  | dotted
  deriving DecidableEq

/-- An entry of a table in the making.  Values are complete. -/
inductive Item where
  | value (v : Value)
  | table (standing : Standing) (entries : List (String × Item))
  /-- An array of tables, each with a header of its own. -/
  | elements (tables : List (List (String × Item)))
  deriving Inhabited

namespace Item

/-- The entries of a table in the making, in order. -/
abbrev Entries := List (String × Item)

mutual

/-- A complete item. -/
def toValue : Item → Value
  | value v => v
  | table _ es => .table (toEntries es)
  | elements ts => .array (toTables ts)

/-- Complete entries. -/
def toEntries : Entries → Toml.Entries
  | [] => []
  | (k, i) :: es => (k, i.toValue) :: toEntries es

/-- Complete tables. -/
def toTables : List Entries → List Value
  | [] => []
  | t :: ts => .table (toEntries t) :: toTables ts

end

/-- Another item under a key that is there. -/
def replace (key : String) (i : Item) (es : Entries) : Entries :=
  es.map fun e => if e.1 = key then (key, i) else e

/-- The entries under other keys. -/
def erase (key : String) (es : Entries) : Entries := es.filter fun e => e.1 ≠ key

/-- A table at the end of a path, below a table with a standing, is changed by `change`.  Missing
tables on the path are made.  A path goes on in the last element of an array of tables.  A dotted
path does not go through stated tables. -/
def changeAt? (dotted : Bool) (change : Standing → Entries → Option Entries) :
    List String → Standing → Entries → Option Entries
  | [], standing, es => change standing es
  | key :: path, _, es =>
    match es.lookup key with
    | none => do
      let standing := if dotted then .dotted else .implied
      let inner ← changeAt? dotted change path standing []
      some (es ++ [(key, table standing inner)])
    | some (value _) => none
    | some (table standing inner) =>
      if dotted && standing = .stated then none
      else do
        let inner ← changeAt? dotted change path standing inner
        some (replace key (table standing inner) es)
    | some (elements ts) => do
      let inner ← changeAt? dotted change path .stated (← ts.getLast?)
      some (replace key (elements (ts.dropLast ++ [inner])) es)

/-- A value under a dotted key, in a stated table.  The table at the end of the path must have
been made by dotted keys, and the key must be new there. -/
def insert? (es : Entries) (path : List String) (key : String) (v : Value) : Option Entries :=
  changeAt? true (fun standing es =>
    if (path.isEmpty || standing = .dotted) && (es.lookup key).isNone then
      some (es ++ [(key, value v)])
    else none) path .stated es

/-- Values under dotted keys. -/
def insertAll? (es : Entries) : List (List String × String × Value) → Option Entries
  | [] => some es
  | (path, key, v) :: kvs => do insertAll? (← insert? es path key v) kvs

/-- A table with a header of its own.  If it was implied before, its entries are kept, and it moves
to the end of the table around it. -/
def openTable? (es : Entries) (path : List String) (key : String)
    (kvs : List (List String × String × Value)) : Option Entries :=
  changeAt? false (fun _ es =>
    match es.lookup key with
    | none => do some (es ++ [(key, table .stated (← insertAll? [] kvs))])
    | some (table .implied inner) => do
      some (erase key es ++ [(key, table .stated (← insertAll? inner kvs))])
    | _ => none) path .stated es

/-- One more element of an array of tables. -/
def openElement? (es : Entries) (path : List String) (key : String)
    (kvs : List (List String × String × Value)) : Option Entries :=
  changeAt? false (fun _ es =>
    match es.lookup key with
    | none => do some (es ++ [(key, elements [← insertAll? [] kvs])])
    | some (elements ts) => do
      some (replace key (elements (ts ++ [← insertAll? [] kvs])) es)
    | _ => none) path .stated es

end Item

end LiveEdit.Toml
