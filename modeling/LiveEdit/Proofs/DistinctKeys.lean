import LiveEdit.Toml.Document
import Mathlib.Data.List.Infix
import Mathlib.Data.List.Nodup

/-!
# Keys of tables

No key occurs twice in a table of a document, at any depth.

* `Value.Distinct` and `Item.Distinct` say this of a value and of an item in the making.
* `DistinctEntries.changeAt?`: a change at the end of a path keeps it, if it keeps it there.  So do
  `insert?`, `openTable?` and `openElement?`.
* `distinct_of_value`: a value that is read has it.
* `distinct_of_read`: a document has it.
-/

namespace LiveEdit.Toml

/-! ## Entries by their keys -/

/-- The keys of entries, in order. -/
def keys {α : Type} (es : List (String × α)) : List String := es.map Prod.fst

section

variable {α : Type} {es : List (String × α)} {key : String}

theorem mem_of_lookup {a : α} (ha : es.lookup key = some a) : (key, a) ∈ es := by
  obtain ⟨front, back, rfl, -⟩ := List.lookup_eq_some_iff.mp ha
  exact List.mem_append_right front List.mem_cons_self

theorem lookup_eq_none_iff : es.lookup key = none ↔ key ∉ keys es := by
  rw [List.lookup_eq_none_iff, keys, List.mem_map]
  constructor
  · intro h hkey
    obtain ⟨e, he, rfl⟩ := hkey
    simpa using h e he
  · intro h e he
    rw [bne_iff_ne]
    rintro rfl
    exact h ⟨e, he, rfl⟩

theorem lookup_cons_of_ne {name : String} {a : α} (hne : key ≠ name) :
    ((name, a) :: es).lookup key = es.lookup key := by
  rw [List.lookup_cons, beq_false_of_ne hne]

end

/-! ## Values and items without a key that occurs twice -/

/-- No table at or inside a value has a key twice. -/
inductive Value.Distinct : Value → Prop
  | string (s : String) : Distinct (.string s)
  | integer (i : Int) : Distinct (.integer i)
  | float (x : Binary64) : Distinct (.float x)
  | boolean (b : Bool) : Distinct (.boolean b)
  | dateTime (text : String) : Distinct (.dateTime text)
  | array {vs : List Value} (hitems : ∀ v ∈ vs, Distinct v) : Distinct (.array vs)
  | table {es : Entries} (hkeys : (keys es).Nodup) (hvalues : ∀ e ∈ es, Distinct e.2) :
      Distinct (.table es)

namespace Item

/-- No table at or inside an item has a key twice. -/
inductive Distinct : Item → Prop
  | value {v : Value} (hvalue : v.Distinct) : Distinct (.value v)
  | table {standing : Standing} {es : Entries} (hkeys : (keys es).Nodup)
      (hitems : ∀ e ∈ es, Distinct e.2) : Distinct (.table standing es)
  | elements {ts : List Entries} (hkeys : ∀ t ∈ ts, (keys t).Nodup)
      (hitems : ∀ t ∈ ts, ∀ e ∈ t, Distinct e.2) : Distinct (.elements ts)

/-- Entries without a key that occurs twice, at any depth. -/
structure DistinctEntries (es : Entries) : Prop where
  keys_nodup : (keys es).Nodup
  items : ∀ e ∈ es, e.2.Distinct

theorem distinct_table_iff {standing : Standing} {es : Entries} :
    (table standing es).Distinct ↔ DistinctEntries es := by
  constructor
  · intro h
    cases h with
    | table hkeys hitems => exact ⟨hkeys, hitems⟩
  · intro h
    exact .table h.keys_nodup h.items

theorem distinct_elements_iff {ts : List Entries} :
    (elements ts).Distinct ↔ ∀ t ∈ ts, DistinctEntries t := by
  constructor
  · intro h
    cases h with
    | elements hkeys hitems => exact fun t ht => ⟨hkeys t ht, hitems t ht⟩
  · intro h
    exact .elements (fun t ht => (h t ht).keys_nodup) fun t ht => (h t ht).items

theorem toEntries_eq (es : Entries) : toEntries es = es.map fun e => (e.1, e.2.toValue) := by
  induction es with
  | nil => rw [toEntries]; rfl
  | cons e es ih => rw [toEntries, ih]; rfl

theorem toTables_eq (ts : List Entries) : toTables ts = ts.map fun t => .table (toEntries t) := by
  induction ts with
  | nil => rw [toTables]; rfl
  | cons t ts ih => rw [toTables, ih]; rfl

theorem keys_toEntries (es : Entries) : keys (toEntries es) = keys es := by
  rw [toEntries_eq, keys, List.map_map]
  rfl

/-- A complete item has no key twice if the item has none. -/
theorem Distinct.toValue {i : Item} (h : i.Distinct) : i.toValue.Distinct := by
  have hentries : ∀ {es : Entries}, (keys es).Nodup → (∀ e ∈ es, e.2.toValue.Distinct) →
      (Value.table (toEntries es)).Distinct := by
    intro es hkeys hvalues
    refine .table (by rwa [keys_toEntries]) ?_
    intro e he
    rw [toEntries_eq] at he
    obtain ⟨e', he', rfl⟩ := List.mem_map.mp he
    exact hvalues e' he'
  induction h with
  | value hvalue => exact hvalue
  | table hkeys _ ih => exact hentries hkeys ih
  | elements hkeys _ ih =>
    refine .array ?_
    intro v hv
    rw [toTables_eq] at hv
    obtain ⟨t, ht, rfl⟩ := List.mem_map.mp hv
    exact hentries (hkeys t ht) (ih t ht)

namespace DistinctEntries

variable {es es' : Entries} {key : String} {i : Item}

theorem toValue (h : DistinctEntries es) : (Value.table (toEntries es)).Distinct := by
  have htable : (table .stated es).Distinct := distinct_table_iff.mpr h
  rw [← Item.toValue]
  exact htable.toValue

theorem nil : DistinctEntries [] := ⟨List.nodup_nil, fun _ he => absurd he List.not_mem_nil⟩

theorem item (h : DistinctEntries es) (hi : es.lookup key = some i) : i.Distinct :=
  h.items _ (mem_of_lookup hi)

/-- A new key at the end. -/
theorem concat (h : DistinctEntries es) (hnew : es.lookup key = none) (hi : i.Distinct) :
    DistinctEntries (es ++ [(key, i)]) := by
  constructor
  · rw [keys, List.map_append, List.map_singleton, ← List.concat_eq_append]
    exact h.keys_nodup.concat (lookup_eq_none_iff.mp hnew)
  · intro e he
    rcases List.mem_append.mp he with he | he
    · exact h.items e he
    · rw [List.mem_singleton.mp he]
      exact hi

theorem replace (h : DistinctEntries es) (hi : i.Distinct) :
    DistinctEntries (Item.replace key i es) := by
  constructor
  · have hkeys : keys (Item.replace key i es) = keys es := by
      rw [Item.replace, keys, List.map_map]
      refine List.map_congr_left ?_
      intro e _
      show (if e.1 = key then (key, i) else e).1 = e.1
      split
      · exact Eq.symm ‹_›
      · rfl
    rw [hkeys]
    exact h.keys_nodup
  · intro e he
    obtain ⟨e', he', rfl⟩ := List.mem_map.mp he
    show (if e'.1 = key then (key, i) else e').2.Distinct
    split
    · exact hi
    · exact h.items e' he'

theorem erase (h : DistinctEntries es) : DistinctEntries (Item.erase key es) := by
  constructor
  · exact (List.filter_sublist.map Prod.fst).nodup h.keys_nodup
  · intro e he
    exact h.items e (List.mem_filter.mp he).1

theorem lookup_erase : (Item.erase key es).lookup key = none := by
  rw [lookup_eq_none_iff, keys, List.mem_map]
  rintro ⟨e, he, rfl⟩
  simpa using (List.mem_filter.mp he).2

/-- A change at the end of a path keeps keys distinct, if it keeps them distinct there. -/
theorem changeAt? {dotted : Bool} {change : Standing → Entries → Option Entries}
    (hchange : ∀ {standing es es'}, DistinctEntries es → change standing es = some es' →
      DistinctEntries es')
    {path : List String} {standing : Standing} (h : DistinctEntries es)
    (hes' : Item.changeAt? dotted change path standing es = some es') : DistinctEntries es' := by
  induction path generalizing standing es es' with
  | nil => exact hchange h hes'
  | cons key path ih =>
    rw [Item.changeAt?] at hes'
    split at hes'
    · rename_i hnone
      obtain ⟨inner, hinner, hes'⟩ := Option.bind_eq_some_iff.mp hes'
      rw [← Option.some.inj hes']
      exact h.concat hnone (distinct_table_iff.mpr (ih nil hinner))
    · cases hes'
    · rename_i standing' inner hsome
      split at hes'
      · cases hes'
      · obtain ⟨inner', hinner, hes'⟩ := Option.bind_eq_some_iff.mp hes'
        rw [← Option.some.inj hes']
        exact h.replace (distinct_table_iff.mpr (ih (distinct_table_iff.mp (h.item hsome)) hinner))
    · rename_i ts hsome
      obtain ⟨t, ht, hes'⟩ := Option.bind_eq_some_iff.mp hes'
      obtain ⟨inner, hinner, hes'⟩ := Option.bind_eq_some_iff.mp hes'
      have htables := distinct_elements_iff.mp (h.item hsome)
      rw [← Option.some.inj hes']
      refine h.replace (distinct_elements_iff.mpr ?_)
      intro u hu
      rcases List.mem_append.mp hu with hu | hu
      · exact htables u (List.mem_of_mem_dropLast hu)
      · rw [List.mem_singleton.mp hu]
        exact ih (htables t (List.mem_of_getLast? ht)) hinner

section

variable {path : List String} {kvs : List (List String × String × Value)}

theorem insert? {v : Value} (h : DistinctEntries es) (hv : v.Distinct)
    (hes' : Item.insert? es path key v = some es') : DistinctEntries es' := by
  refine changeAt? ?_ h hes'
  intro standing es es' h hes'
  split at hes'
  · rename_i hnew
    have hnone := Option.isNone_iff_eq_none.mp (Bool.and_eq_true_iff.mp hnew).2
    rw [← Option.some.inj hes']
    exact h.concat hnone (.value hv)
  · cases hes'

theorem insertAll? (h : DistinctEntries es) (hkvs : ∀ kv ∈ kvs, kv.2.2.Distinct)
    (hes' : Item.insertAll? es kvs = some es') : DistinctEntries es' := by
  induction kvs generalizing es with
  | nil => exact Option.some.inj hes' ▸ h
  | cons kv kvs ih =>
    obtain ⟨inner, hinner, hes'⟩ := Option.bind_eq_some_iff.mp hes'
    refine ih (h.insert? (hkvs kv List.mem_cons_self) hinner) ?_ hes'
    exact fun kv' hkv' => hkvs kv' (List.mem_cons_of_mem kv hkv')

theorem openTable? (h : DistinctEntries es) (hkvs : ∀ kv ∈ kvs, kv.2.2.Distinct)
    (hes' : Item.openTable? es path key kvs = some es') : DistinctEntries es' := by
  refine changeAt? ?_ h hes'
  intro standing es es' h hes'
  split at hes'
  · rename_i hnone
    obtain ⟨inner, hinner, hes'⟩ := Option.bind_eq_some_iff.mp hes'
    rw [← Option.some.inj hes']
    exact h.concat hnone (distinct_table_iff.mpr (nil.insertAll? hkvs hinner))
  · rename_i inner hsome
    obtain ⟨inner', hinner, hes'⟩ := Option.bind_eq_some_iff.mp hes'
    have hbelow := distinct_table_iff.mp (h.item hsome)
    rw [← Option.some.inj hes']
    exact h.erase.concat lookup_erase (distinct_table_iff.mpr (hbelow.insertAll? hkvs hinner))
  · cases hes'

theorem openElement? (h : DistinctEntries es) (hkvs : ∀ kv ∈ kvs, kv.2.2.Distinct)
    (hes' : Item.openElement? es path key kvs = some es') : DistinctEntries es' := by
  refine changeAt? ?_ h hes'
  intro standing es es' h hes'
  split at hes'
  · rename_i hnone
    obtain ⟨inner, hinner, hes'⟩ := Option.bind_eq_some_iff.mp hes'
    rw [← Option.some.inj hes']
    refine h.concat hnone (distinct_elements_iff.mpr ?_)
    intro t ht
    rw [List.mem_singleton.mp ht]
    exact nil.insertAll? hkvs hinner
  · rename_i ts hsome
    obtain ⟨inner, hinner, hes'⟩ := Option.bind_eq_some_iff.mp hes'
    have htables := distinct_elements_iff.mp (h.item hsome)
    rw [← Option.some.inj hes']
    refine h.replace (distinct_elements_iff.mpr ?_)
    intro t ht
    rcases List.mem_append.mp ht with ht | ht
    · exact htables t ht
    · rw [List.mem_singleton.mp ht]
      exact nil.insertAll? hkvs hinner
  · cases hes'

end

end DistinctEntries

end Item

/-! ## What is read -/

/-- Whatever a reader takes off a text has a property. -/
def Reader.Yields {α : Type} (r : Reader α) (P : α → Prop) : Prop :=
  ∀ ⦃cs a rest⦄, r cs = some (a, rest) → P a

section

variable {α β : Type} {value : Reader Value} {P : Value → Prop}

theorem Reader.Yields.map {f : α → β} {r : Reader α} {Q : β → Prop}
    (h : r.Yields fun a => Q (f a)) : (r.map f).Yields Q := by
  intro cs b rest hb
  obtain ⟨p, hp, heq⟩ := Option.map_eq_some_iff.mp hb
  cases heq
  exact h hp

theorem pair_yields (h : value.Yields P) : (pair value).Yields fun kv => P kv.2.2 := by
  intro cs kv rest hkv
  obtain ⟨⟨⟨path, key⟩, cs'⟩, -, hkv⟩ := Option.bind_eq_some_iff.mp hkv
  dsimp only at hkv
  split at hkv
  · obtain ⟨⟨v, cs''⟩, hv, hkv⟩ := Option.bind_eq_some_iff.mp hkv
    cases hkv
    exact h hv
  · cases hkv

theorem arrayRest_yields (h : value.Yields P) (fuel : Nat) :
    (arrayRest value fuel).Yields fun vs => ∀ v ∈ vs, P v := by
  induction fuel with
  | zero => exact fun cs vs rest hvs => nomatch hvs
  | succ fuel ih =>
    intro cs vs rest hvs
    obtain ⟨cs₁, -, hvs⟩ := Option.bind_eq_some_iff.mp hvs
    split at hvs
    · cases hvs
      exact fun v hv => absurd hv List.not_mem_nil
    · obtain ⟨⟨v, cs₂⟩, hv, hvs⟩ := Option.bind_eq_some_iff.mp hvs
      obtain ⟨cs₃, -, hvs⟩ := Option.bind_eq_some_iff.mp hvs
      split at hvs
      · obtain ⟨⟨vs', cs₄⟩, hvs', heq⟩ := Option.bind_eq_some_iff.mp hvs
        cases heq
        exact List.forall_mem_cons.mpr ⟨h hv, ih hvs'⟩
      · cases hvs
        exact List.forall_mem_singleton.mpr (h hv)
      · cases hvs

theorem pairsRest_yields (h : value.Yields P) (fuel : Nat) :
    (pairsRest value fuel).Yields fun kvs => ∀ kv ∈ kvs, P kv.2.2 := by
  induction fuel with
  | zero => exact fun cs kvs rest hkvs => nomatch hkvs
  | succ fuel ih =>
    intro cs kvs rest hkvs
    obtain ⟨⟨kv, cs₁⟩, hkv, hkvs⟩ := Option.bind_eq_some_iff.mp hkvs
    dsimp only at hkvs
    split at hkvs
    · obtain ⟨⟨kvs', cs₂⟩, hkvs', heq⟩ := Option.bind_eq_some_iff.mp hkvs
      cases heq
      exact List.forall_mem_cons.mpr ⟨pair_yields h hkv, ih hkvs'⟩
    · cases hkvs
      exact List.forall_mem_singleton.mpr (pair_yields h hkv)
    · cases hkvs

end

theorem inlineTable_yields {value : Reader Value} (h : value.Yields Value.Distinct) :
    (inlineTable value).Yields Value.Distinct := by
  intro cs v rest hv
  rw [inlineTable] at hv
  split at hv
  · cases hv
    exact .table List.nodup_nil fun e he => absurd he List.not_mem_nil
  · obtain ⟨⟨kvs, cs'⟩, hkvs, hv⟩ := Option.bind_eq_some_iff.mp hv
    obtain ⟨es, hes, heq⟩ := Option.bind_eq_some_iff.mp hv
    cases heq
    exact (Item.DistinctEntries.nil.insertAll? (pairsRest_yields h _ hkvs) hes).toValue

theorem number_yields : number.Yields Value.Distinct := by
  intro cs v rest hv
  rw [number] at hv
  split at hv
  · cases hv
    exact .dateTime _
  · rcases Option.or_eq_some_iff.mp hv with hv | ⟨-, hv⟩
    · exact Reader.Yields.map (fun _ x _ _ => .float x) hv
    · exact Reader.Yields.map (fun _ i _ _ => .integer i) hv

theorem value_yields (depth : Nat) : (value depth).Yields Value.Distinct := by
  intro cs v rest hv
  rw [value.eq_def] at hv
  split at hv
  · exact Reader.Yields.map (fun _ s _ _ => .string s) hv
  · exact Reader.Yields.map (fun _ s _ _ => .string s) hv
  · cases depth with
    | zero => cases hv
    | succ depth =>
      have hitems := arrayRest_yields (value_yields depth)
      exact Reader.Yields.map (fun _ vs _ hvs => .array (hitems _ hvs)) hv
  · cases depth with
    | zero => cases hv
    | succ depth => exact inlineTable_yields (value_yields depth) hv
  · cases hv
    exact .boolean true
  · cases hv
    exact .boolean false
  · exact number_yields hv

/-! ## Documents -/

/-- The value on a line has no key twice. -/
def Line.Distinct : Line → Prop
  | .pair _ _ v => v.Distinct
  | .table _ _ | .element _ _ => True

theorem line_yields : line.Yields fun l => ∀ l' ∈ l, l'.Distinct := by
  intro cs l rest hl
  rw [line.eq_def] at hl
  split at hl
  · obtain ⟨⟨⟨path, key⟩, cs'⟩, -, heq⟩ := Option.bind_eq_some_iff.mp hl
    cases heq
    exact fun l' hl' => Option.mem_some.mp hl' ▸ trivial
  · obtain ⟨⟨⟨path, key⟩, cs'⟩, -, heq⟩ := Option.bind_eq_some_iff.mp hl
    cases heq
    exact fun l' hl' => Option.mem_some.mp hl' ▸ trivial
  · split at hl
    · obtain ⟨cs', -, heq⟩ := Option.map_eq_some_iff.mp hl
      cases heq
      exact fun l' hl' => nomatch hl'
    · obtain ⟨⟨⟨path, key, v⟩, cs'⟩, hv, hl⟩ := Option.bind_eq_some_iff.mp hl
      obtain ⟨cs'', -, heq⟩ := Option.bind_eq_some_iff.mp hl
      cases heq
      have hdistinct : v.Distinct := pair_yields (value_yields maxNesting) hv
      exact fun l' hl' => Option.mem_some.mp hl' ▸ hdistinct
  · cases hl

theorem distinct_of_lines {fuel : Nat} {cs : List Char} {ls : List Line}
    (hls : lines fuel cs = some ls) : ∀ l ∈ ls, l.Distinct := by
  induction fuel generalizing cs ls with
  | zero => cases hls
  | succ fuel ih =>
    rw [lines] at hls
    split at hls
    · cases hls
      exact fun l hl => absurd hl List.not_mem_nil
    · obtain ⟨⟨l, rest⟩, hl, hls⟩ := Option.bind_eq_some_iff.mp hls
      obtain ⟨ls', hls', heq⟩ := Option.bind_eq_some_iff.mp hls
      cases heq
      intro l' hl'
      rcases List.mem_append.mp hl' with hl' | hl'
      · exact line_yields hl l' (Option.mem_toList.mp hl')
      · exact ih hls' l' hl'

/-- The values of a section have no key twice. -/
def Section.Distinct (s : Section) : Prop := ∀ kv ∈ s.entries, kv.2.2.Distinct

theorem distinct_of_sections {ls : List Line} (h : ∀ l ∈ ls, l.Distinct) :
    ∀ s ∈ sections ls, s.Distinct := by
  have hnil : ∀ header, Section.Distinct ⟨header, []⟩ :=
    fun _ kv hkv => absurd hkv List.not_mem_nil
  fun_induction sections ls with
  | case1 => exact List.forall_mem_singleton.mpr (hnil none)
  | case2 path key v ls s ss hss ih =>
    have hv : v.Distinct := h _ List.mem_cons_self
    have hrest := ih fun l hl => h l (List.mem_cons_of_mem _ hl)
    rw [hss, List.forall_mem_cons] at hrest
    exact List.forall_mem_cons.mpr ⟨List.forall_mem_cons.mpr ⟨hv, hrest.1⟩, hrest.2⟩
  | case3 path key v ls hss ih =>
    have hv : v.Distinct := h _ List.mem_cons_self
    exact List.forall_mem_singleton.mpr (List.forall_mem_singleton.mpr hv)
  | case4 l ls _ ih =>
    have hrest := ih fun l hl => h l (List.mem_cons_of_mem _ hl)
    cases hss : sections ls with
    | nil => exact List.forall_mem_cons.mpr ⟨hnil none, List.forall_mem_singleton.mpr (hnil _)⟩
    | cons s ss =>
      rw [hss, List.forall_mem_cons] at hrest
      exact List.forall_mem_cons.mpr ⟨hnil none, List.forall_mem_cons.mpr hrest⟩

theorem Section.Distinct.addTo? {s : Section} {root root' : Item.Entries} (h : s.Distinct)
    (hroot : Item.DistinctEntries root) (hroot' : s.addTo? root = some root') :
    Item.DistinctEntries root' := by
  rw [Section.addTo?] at hroot'
  split at hroot'
  · exact hroot.openTable? h hroot'
  · exact hroot.openElement? h hroot'
  · exact hroot.insertAll? h hroot'

/-- The root table of a document, given its lines. -/
def rootOf? (ls : List Line) : Option Item.Entries :=
  (sections ls).foldlM (fun root s => s.addTo? root) []

/-- The lines of a text.  A byte order mark in front does not count. -/
def linesOf? (text : String) : Option (List Line) :=
  let cs := match text.toList with
    | '\uFEFF' :: cs => cs
    | cs => cs
  lines (cs.length + 1) cs

theorem read_eq (text : String) :
    read text = (linesOf? text).bind fun ls => (rootOf? ls).map Item.toEntries := by
  rw [read, linesOf?]
  simp only [Option.map_eq_bind]
  rfl

theorem distinct_of_sections_added {ss : List Section} (h : ∀ s ∈ ss, s.Distinct)
    {root root' : Item.Entries} (hroot : Item.DistinctEntries root)
    (hroot' : ss.foldlM (fun root s => s.addTo? root) root = some root') :
    Item.DistinctEntries root' := by
  induction ss generalizing root with
  | nil => exact Option.some.inj hroot' ▸ hroot
  | cons s ss ih =>
    rw [List.foldlM_cons] at hroot'
    obtain ⟨next, hnext, hroot'⟩ := Option.bind_eq_some_iff.mp hroot'
    obtain ⟨hs, hss⟩ := List.forall_mem_cons.mp h
    exact ih hss (hs.addTo? hroot hnext) hroot'

/-- No table of a document has a key twice. -/
theorem distinct_of_read {text : String} {es : Entries} (hes : read text = some es) :
    (Value.table es).Distinct := by
  rw [read_eq] at hes
  obtain ⟨ls, hls, hes⟩ := Option.bind_eq_some_iff.mp hes
  obtain ⟨root, hroot, rfl⟩ := Option.map_eq_some_iff.mp hes
  have hsections := distinct_of_sections (distinct_of_lines hls)
  exact (distinct_of_sections_added hsections .nil hroot).toValue

end LiveEdit.Toml
