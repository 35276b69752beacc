import LiveEdit.Proofs.DistinctKeys

/-!
# One table in several forms

A table can be written with its keys in any order, below a header, or with dotted keys.

* `Value.Reordered` relates values that differ in the order of keys only; their tables have
  related values under every key (`Value.Reordered.lookup`).
* `rootOf?_pairs`, `rootOf?_header` and `Item.insertAll?_nil_below`: the root table of lines without
  a header, of a header with lines below it, and of lines with a common first key.
-/

namespace LiveEdit.Toml

/-! ## Tables in another order -/

/-- Two values that differ in the order of keys only, at any depth. -/
inductive Value.Reordered : Value → Value → Prop
  | same (v : Value) : Reordered v v
  | array {vs ws : List Value} (hlength : vs.length = ws.length)
      (hitems : ∀ (i : Nat) (v w : Value), vs[i]? = some v → ws[i]? = some w → Reordered v w) :
      Reordered (.array vs) (.array ws)
  | table {es gs : Entries} (hkeys : (keys es).Perm (keys gs))
      (hvalues : ∀ (key : String) (v w : Value), (key, v) ∈ es → (key, w) ∈ gs → Reordered v w) :
      Reordered (.table es) (.table gs)

namespace Value.Reordered

theorem symm {v w : Value} (h : v.Reordered w) : w.Reordered v := by
  induction h with
  | same v => exact .same v
  | array hlength _ ih => exact .array hlength.symm fun i w v hw hv => ih i v w hv hw
  | table hkeys _ ih => exact .table hkeys.symm fun key w v hw hv => ih key v w hv hw

theorem rel_same (v : Option Value) : Option.Rel Reordered v v := by
  cases v with
  | none => exact .none
  | some v => exact .some (.same v)

/-- The values under a key, if any. -/
theorem lookup {es gs : Entries} (h : Reordered (.table es) (.table gs)) (key : String) :
    Option.Rel Reordered (es.lookup key) (gs.lookup key) := by
  cases h with
  | same => exact rel_same _
  | table hkeys hvalues =>
    cases hes : es.lookup key with
    | none =>
      have hnew : key ∉ keys gs := fun hkey =>
        lookup_eq_none_iff.mp hes (hkeys.mem_iff.mpr hkey)
      rw [lookup_eq_none_iff.mpr hnew]
      exact .none
    | some v =>
      cases hgs : gs.lookup key with
      | none =>
        have hkey := hkeys.mem_iff.mp (List.mem_map_of_mem (f := Prod.fst) (mem_of_lookup hes))
        exact absurd hkey (lookup_eq_none_iff.mp hgs)
      | some w => exact .some (hvalues key v w (mem_of_lookup hes) (mem_of_lookup hgs))

theorem mem_keys_iff {es gs : Entries} (h : Reordered (.table es) (.table gs)) {key : String} :
    key ∈ keys es ↔ key ∈ keys gs := by
  cases h with
  | same => exact Iff.rfl
  | table hkeys _ => exact hkeys.mem_iff

/-- The values at an index, if any. -/
theorem getElem? {vs ws : List Value} (h : Reordered (.array vs) (.array ws)) (i : Nat) :
    Option.Rel Reordered vs[i]? ws[i]? := by
  cases h with
  | same => exact rel_same _
  | array hlength hitems =>
    cases hvs : vs[i]? with
    | none =>
      rw [List.getElem?_eq_none_iff, hlength] at hvs
      rw [List.getElem?_eq_none hvs]
      exact .none
    | some v =>
      have hi := (List.getElem?_eq_some_iff.mp hvs).1
      rw [List.getElem?_eq_getElem (hlength ▸ hi)]
      exact .some (hitems i v _ hvs (List.getElem?_eq_getElem (hlength ▸ hi)))

end Value.Reordered

/-! ## Headers and dotted keys -/

/-- A key and its value on a line of its own. -/
def Line.ofPair (kv : List String × String × Value) : Line := .pair kv.1 kv.2.1 kv.2.2

/-- A key below another one. -/
def below (name : String) (kv : List String × String × Value) : List String × String × Value :=
  (name :: kv.1, kv.2)

theorem sections_pairs (kvs : List (List String × String × Value)) :
    sections (kvs.map Line.ofPair) = [⟨none, kvs⟩] := by
  induction kvs with
  | nil => rfl
  | cons kv kvs ih =>
    rw [List.map_cons, Line.ofPair, sections, ih]

theorem rootOf?_pairs (kvs : List (List String × String × Value)) :
    rootOf? (kvs.map Line.ofPair) = Item.insertAll? [] kvs := by
  rw [rootOf?, sections_pairs]
  simp [Section.addTo?]

/-- A header with entries below it states a table. -/
theorem rootOf?_header (name : String) (kvs : List (List String × String × Value)) :
    rootOf? (.table [] name :: kvs.map Line.ofPair) =
      (Item.insertAll? [] kvs).map fun es => [(name, .table .stated es)] := by
  have hsections : sections (.table [] name :: kvs.map Line.ofPair) =
      [⟨none, []⟩, ⟨some (.table [] name), kvs⟩] := by
    rw [sections, sections_pairs]
    intro path key v hline
    cases hline
  rw [rootOf?, hsections]
  cases hes : Item.insertAll? [] kvs <;>
    simp [Section.addTo?, Item.insertAll?, Item.openTable?, Item.changeAt?, hes]

namespace Item

/-- An entry where every table on the path has been made by dotted keys. -/
def insertDotted? (key : String) (v : Value) (standing : Standing) (es : Entries) :
    Option Entries :=
  if standing = .dotted && (es.lookup key).isNone then some (es ++ [(key, value v)]) else none

theorem insert?_eq_changeAt? (es : Entries) (path : List String) (key : String) (v : Value) :
    insert? es path key v = changeAt? true (insertDotted? key v) path .dotted es := by
  cases path with
  | nil => rfl
  | cons name path => rfl

/-- A dotted key goes on in a table that dotted keys have made. -/
theorem insert?_cons (name : String) (path : List String) (key : String) (v : Value)
    (es : Entries) :
    insert? [(name, table .dotted es)] (name :: path) key v =
      (insert? es path key v).map fun es => [(name, table .dotted es)] := by
  rw [insert?_eq_changeAt? es, insert?_eq_changeAt?, changeAt?, List.lookup_cons_self]
  cases hinner : changeAt? true (insertDotted? key v) path .dotted es with
  | none => simp [hinner]
  | some inner => simp [hinner, replace]

/-- The first dotted key makes the table. -/
theorem insert?_nil_cons (name : String) (path : List String) (key : String) (v : Value) :
    insert? [] (name :: path) key v =
      (insert? [] path key v).map fun es => [(name, table .dotted es)] := by
  rw [insert?_eq_changeAt? [] path, insert?_eq_changeAt?, changeAt?, List.lookup_nil]
  cases hinner : changeAt? true (insertDotted? key v) path .dotted [] with
  | none => simp [hinner]
  | some inner => simp [hinner]

theorem insertAll?_below (name : String) (kvs : List (List String × String × Value))
    (es : Entries) :
    insertAll? [(name, table .dotted es)] (kvs.map (below name)) =
      (insertAll? es kvs).map fun es => [(name, table .dotted es)] := by
  induction kvs generalizing es with
  | nil => rfl
  | cons kv kvs ih =>
    rw [List.map_cons, below, insertAll?, insertAll?, insert?_cons]
    cases insert? es kv.1 kv.2.1 kv.2.2 with
    | none => rfl
    | some inner => exact ih inner

/-- Keys below another one make a table, unless there is none. -/
theorem insertAll?_nil_below (name : String) {kvs : List (List String × String × Value)}
    (hkvs : kvs ≠ []) :
    insertAll? [] (kvs.map (below name)) =
      (insertAll? [] kvs).map fun es => [(name, table .dotted es)] := by
  obtain ⟨kv, kvs, rfl⟩ := List.exists_cons_of_ne_nil hkvs
  rw [List.map_cons, below, insertAll?, insertAll?, insert?_nil_cons]
  cases insert? [] kv.1 kv.2.1 kv.2.2 with
  | none => rfl
  | some inner => exact insertAll?_below name kvs inner

end Item

end LiveEdit.Toml
