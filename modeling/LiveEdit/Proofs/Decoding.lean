import LiveEdit.Proofs.TableForms
import LiveEdit.Settings.File
import Mathlib

/-!
# Which documents hold settings

A document holds settings if and only if its root table follows the schema, and it then holds the
fields that are given and the defaults of the others.

* `Gives` says which fields a logging section gives, by name in a table and by position in an
  array.
* `setFields_eq_ok_iff`: setting the entries of a table one after the other sets each field once.
* `ofEntries_eq_ok_iff`: a root table holds settings if and only if it follows the schema.
* `Holds.reordered`: the order of keys does not matter.
* `Writes.ofLines?_eq`: a section, an inline table and dotted keys mean the same.
* `parse_follows_schema` puts these together for a text.
-/

namespace LiveEdit.Settings

open Toml (Line linesOf? rootOf? Item)

/-! ## The schema -/

/-- What is given for the fields of the logging section. -/
structure Fields where
  level : Option Toml.Value
  json : Option Toml.Value
  stderr : Option Toml.Value

namespace Fields

/-- In a table the fields stand under their names. -/
def ofTable (es : Toml.Entries) : Fields :=
  ⟨es.lookup "level", es.lookup "json", es.lookup "stderr"⟩

/-- In an array the fields stand in order.  What follows does not count. -/
def ofArray (vs : List Toml.Value) : Fields := ⟨vs[0]?, vs[1]?, vs[2]?⟩

/-- What is given has the type of its field. -/
structure Typed (f : Fields) : Prop where
  level : ∀ v ∈ f.level, ∃ s, v = .string s
  json : ∀ v ∈ f.json, ∃ b, v = .boolean b
  stderr : ∀ v ∈ f.stderr, ∃ b, v = .boolean b

/-- A field goes from `a` to the value that is given, or stays `a` if none is given. -/
def Goes {α : Type} (given : Option Toml.Value) (make : α → Toml.Value) (a a' : α) : Prop :=
  given = some (make a') ∨ given = none ∧ a' = a

/-- The fields that are given have their values in `l'`, and the others are as in `l`. -/
structure Sets (f : Fields) (l l' : Logging) : Prop where
  level : Goes f.level .string l.level l'.level
  json : Goes f.json .boolean l.json l'.json
  stderr : Goes f.stderr .boolean l.stderr l'.stderr

end Fields

/-- The fields that a logging section gives, if there is a section.  A table gives no others. -/
inductive Gives : Option Toml.Value → Fields → Prop
  | absent : Gives none ⟨none, none, none⟩
  | table {es : Toml.Entries} (hknown : ∀ key ∈ Toml.keys es, key ∈ ["level", "json", "stderr"]) :
      Gives (some (.table es)) (.ofTable es)
  | array {vs : List Toml.Value} : Gives (some (.array vs)) (.ofArray vs)

/-- A root table has no other key than `logging`, and the fields that are given there, with the
defaults of the others, are those of the settings. -/
def Holds (t : Toml.Entries) (s : Settings) : Prop :=
  (∀ key ∈ Toml.keys t, key = "logging") ∧
    ∃ f, Gives (t.lookup "logging") f ∧ f.Sets ⟨"info", false, true⟩ s.logging

/-! ## Setting one field -/

namespace Fields

@[simp] theorem goes_none {α : Type} {make : α → Toml.Value} {a a' : α} :
    Goes none make a a' ↔ a' = a := by
  simp [Goes]

@[simp] theorem goes_some {α : Type} {make : α → Toml.Value} {v : Toml.Value} {a a' : α} :
    Goes (some v) make a a' ↔ v = make a' := by
  simp [Goes]

theorem exists_goes_iff {α : Type} {given : Option Toml.Value} {make : α → Toml.Value} (a : α) :
    (∃ a', Goes given make a a') ↔ ∀ v ∈ given, ∃ a', v = make a' := by
  cases given <;> simp

theorem sets_iff {f : Fields} {l l' : Logging} :
    f.Sets l l' ↔ Goes f.level .string l.level l'.level ∧ Goes f.json .boolean l.json l'.json ∧
      Goes f.stderr .boolean l.stderr l'.stderr :=
  ⟨fun h => ⟨h.level, h.json, h.stderr⟩, fun h => ⟨h.1, h.2.1, h.2.2⟩⟩

theorem sets_none_iff {l l' : Logging} : Sets ⟨none, none, none⟩ l l' ↔ l = l' := by
  cases l
  cases l'
  simp [sets_iff, eq_comm]

/-- Fields have their types if and only if they can be set. -/
theorem typed_iff {f : Fields} (l : Logging) : f.Typed ↔ ∃ l', f.Sets l l' := by
  constructor
  · intro h
    obtain ⟨level, hlevel⟩ := (exists_goes_iff l.level).mpr h.level
    obtain ⟨json, hjson⟩ := (exists_goes_iff l.json).mpr h.json
    obtain ⟨stderr, hstderr⟩ := (exists_goes_iff l.stderr).mpr h.stderr
    exact ⟨⟨level, json, stderr⟩, hlevel, hjson, hstderr⟩
  · rintro ⟨l', h⟩
    exact ⟨(exists_goes_iff _).mp ⟨_, h.level⟩, (exists_goes_iff _).mp ⟨_, h.json⟩,
      (exists_goes_iff _).mp ⟨_, h.stderr⟩⟩

end Fields

theorem stringOf_eq_ok_iff {v : Toml.Value} {s : String} : stringOf v = .ok s ↔ v = .string s := by
  cases v <;> simp [stringOf]

theorem booleanOf_eq_ok_iff {v : Toml.Value} {b : Bool} : booleanOf v = .ok b ↔ v = .boolean b := by
  cases v <;> simp [booleanOf]

theorem exists_map_eq_ok_iff {α : Type} {r : Except SchemaError α} {set : α → Logging}
    {P : Logging → Prop} : (∃ next, r.map set = .ok next ∧ P next) ↔ ∃ a, r = .ok a ∧ P (set a) := by
  cases r <;> simp [Except.map]

/-- The first entry sets its field, and the others set theirs after it. -/
theorem sets_cons_iff {name : String} {v : Toml.Value} {es : Toml.Entries} {l l' : Logging}
    (hnew : name ∉ Toml.keys es) :
    (∃ next, setField l name v = .ok next ∧ (Fields.ofTable es).Sets next l') ↔
      name ∈ ["level", "json", "stderr"] ∧ (Fields.ofTable ((name, v) :: es)).Sets l l' := by
  have hnone := Toml.lookup_eq_none_iff.mpr hnew
  simp only [Fields.sets_iff, Fields.ofTable]
  by_cases hlevel : name = "level"
  · subst hlevel
    simp [setField, exists_map_eq_ok_iff, stringOf_eq_ok_iff, hnone, Toml.lookup_cons_of_ne]
  by_cases hjson : name = "json"
  · subst hjson
    simp [setField, exists_map_eq_ok_iff, booleanOf_eq_ok_iff, hnone, Toml.lookup_cons_of_ne,
      -Bool.exists_bool]
    exact and_left_comm
  by_cases hstderr : name = "stderr"
  · subst hstderr
    simp [setField, exists_map_eq_ok_iff, booleanOf_eq_ok_iff, hnone, Toml.lookup_cons_of_ne,
      -Bool.exists_bool]
    rw [and_comm, and_assoc]
  · simp [setField, hlevel, hjson, hstderr]

theorem setFields_cons_eq_ok_iff {name : String} {v : Toml.Value} {es : Toml.Entries}
    {l l' : Logging} : setFields l ((name, v) :: es) = .ok l' ↔
      ∃ next, setField l name v = .ok next ∧ setFields next es = .ok l' := by
  rw [setFields]
  cases setField l name v <;> simp [bind, Except.bind]

/-- Setting entries under distinct keys one after the other sets the field of each. -/
theorem setFields_eq_ok_iff {es : Toml.Entries} (hkeys : (Toml.keys es).Nodup) {l l' : Logging} :
    setFields l es = .ok l' ↔
      (∀ key ∈ Toml.keys es, key ∈ ["level", "json", "stderr"]) ∧
        (Fields.ofTable es).Sets l l' := by
  induction es generalizing l with
  | nil =>
    have hnone : Fields.ofTable [] = ⟨none, none, none⟩ := rfl
    rw [hnone, Fields.sets_none_iff]
    simp [setFields, Toml.keys]
  | cons e es ih =>
    obtain ⟨name, v⟩ := e
    obtain ⟨hnew, hrest⟩ := List.nodup_cons.mp hkeys
    have hall : (∀ key ∈ Toml.keys ((name, v) :: es), key ∈ ["level", "json", "stderr"]) ↔
        name ∈ ["level", "json", "stderr"] ∧
          ∀ key ∈ Toml.keys es, key ∈ ["level", "json", "stderr"] := List.forall_mem_cons
    rw [setFields_cons_eq_ok_iff, hall, and_right_comm, ← sets_cons_iff hnew]
    simp only [ih hrest]
    constructor
    · rintro ⟨next, hnext, hknown, hsets⟩
      exact ⟨⟨next, hnext, hsets⟩, hknown⟩
    · rintro ⟨⟨next, hnext, hsets⟩, hknown⟩
      exact ⟨next, hnext, hknown, hsets⟩

/-! ## The logging section -/

theorem ofTable_zip (vs : List Toml.Value) :
    Fields.ofTable (loggingFields.zip vs) = Fields.ofArray vs := by
  match vs with
  | [] | [_] | [_, _] | _ :: _ :: _ :: _ => rfl

theorem keys_zip_prefix (vs : List Toml.Value) :
    Toml.keys (loggingFields.zip vs) <+: loggingFields := by
  match vs with
  | [] | [_] | [_, _] | _ :: _ :: _ :: _ => simp [Toml.keys, loggingFields]

theorem loggingOf_eq_ok_iff {v : Toml.Value} (hv : v.Distinct) {l : Logging} :
    loggingOf v = .ok l ↔ ∃ f, Gives (some v) f ∧ f.Sets ⟨"info", false, true⟩ l := by
  cases v with
  | table es =>
    cases hv with
    | table hkeys _ =>
      rw [loggingOf, setFields_eq_ok_iff hkeys]
      constructor
      · rintro ⟨hknown, hsets⟩
        exact ⟨_, .table hknown, hsets⟩
      · rintro ⟨f, hgives, hsets⟩
        cases hgives with
        | table hknown => exact ⟨hknown, hsets⟩
  | array vs =>
    have hprefix := keys_zip_prefix vs
    have hkeys : (Toml.keys (loggingFields.zip vs)).Nodup :=
      hprefix.sublist.nodup (by decide)
    rw [loggingOf, setFields_eq_ok_iff hkeys, ofTable_zip]
    constructor
    · rintro ⟨-, hsets⟩
      exact ⟨_, .array, hsets⟩
    · rintro ⟨f, hgives, hsets⟩
      cases hgives with
      | array => exact ⟨fun key hkey => hprefix.subset hkey, hsets⟩
  | _ =>
    refine iff_of_false nofun ?_
    rintro ⟨f, hgives, -⟩
    cases hgives

/-! ## The root table -/

theorem setRoot_of_ne {name : String} (hname : name ≠ "logging") (v : Toml.Value)
    (es : Toml.Entries) (s : Settings) :
    setRoot s ((name, v) :: es) = .error (.unknownField name rootFields) := by
  rw [setRoot, if_neg hname]

theorem setRoot_logging_eq_ok_iff {v : Toml.Value} {es : Toml.Entries} {s s' : Settings} :
    setRoot s (("logging", v) :: es) = .ok s' ↔
      ∃ l, loggingOf v = .ok l ∧ setRoot ⟨l⟩ es = .ok s' := by
  rw [setRoot, if_pos rfl]
  cases loggingOf v <;> simp [bind, Except.bind]

theorem holds_nil_iff {s : Settings} : Holds [] s ↔ s = default := by
  constructor
  · rintro ⟨-, f, hgives, hsets⟩
    cases hgives
    exact congrArg Settings.mk (Fields.sets_none_iff.mp hsets).symm
  · rintro rfl
    exact ⟨fun key hkey => absurd hkey List.not_mem_nil, _, .absent, Fields.sets_none_iff.mpr rfl⟩

theorem holds_singleton_iff {v : Toml.Value} (hv : v.Distinct) {s : Settings} :
    Holds [("logging", v)] s ↔ loggingOf v = .ok s.logging := by
  rw [loggingOf_eq_ok_iff hv]
  exact and_iff_right (List.forall_mem_singleton.mpr rfl)

/-- A root table without a key that occurs twice holds settings if and only if it follows the
schema. -/
theorem ofEntries_eq_ok_iff {t : Toml.Entries} (ht : (Toml.Value.table t).Distinct)
    {s : Settings} : ofEntries t = .ok s ↔ Holds t s := by
  obtain ⟨hkeys, hvalues⟩ : (Toml.keys t).Nodup ∧ ∀ e ∈ t, e.2.Distinct := by
    cases ht with
    | table hkeys hvalues => exact ⟨hkeys, hvalues⟩
  rw [ofEntries]
  match t with
  | [] => rw [holds_nil_iff, setRoot, Except.ok.injEq, eq_comm]
  | (name, v) :: es =>
    by_cases hname : name = "logging"
    · subst hname
      rw [setRoot_logging_eq_ok_iff]
      match es with
      | [] =>
        rw [holds_singleton_iff (hvalues _ List.mem_cons_self)]
        cases s
        simp [setRoot]
      | (name, w) :: es =>
        have hname : name ≠ "logging" := by
          rintro rfl
          exact (List.nodup_cons.mp hkeys).1 List.mem_cons_self
        simp only [setRoot_of_ne hname]
        refine iff_of_false nofun fun h => hname (h.1 name ?_)
        exact List.mem_cons_of_mem _ List.mem_cons_self
    · rw [setRoot_of_ne hname]
      exact iff_of_false nofun fun h => hname (h.1 name List.mem_cons_self)

/-! ## Keys in another order -/

theorem Fields.Goes.reordered {α : Type} {given given' : Option Toml.Value}
    {make : α → Toml.Value} (hmake : ∀ {a w}, (make a).Reordered w → w = make a) {a a' : α}
    (h : Goes given make a a') (hgiven : Option.Rel Toml.Value.Reordered given given') :
    Goes given' make a a' := by
  rcases h with rfl | ⟨rfl, h⟩
  · cases hgiven with
    | some hv => exact .inl (congrArg some (hmake hv))
  · cases hgiven
    exact .inr ⟨rfl, h⟩

/-- What is given for each field may be reordered. -/
structure Fields.Reordered (f f' : Fields) : Prop where
  level : Option.Rel Toml.Value.Reordered f.level f'.level
  json : Option.Rel Toml.Value.Reordered f.json f'.json
  stderr : Option.Rel Toml.Value.Reordered f.stderr f'.stderr

theorem Fields.Sets.reordered {f f' : Fields} {l l' : Logging} (h : f.Sets l l')
    (hf : f.Reordered f') : f'.Sets l l' := by
  have hstring : ∀ {s w}, (Toml.Value.string s).Reordered w → w = .string s := by
    intro s w hw
    cases hw
    rfl
  have hboolean : ∀ {b w}, (Toml.Value.boolean b).Reordered w → w = .boolean b := by
    intro b w hw
    cases hw
    rfl
  exact ⟨h.level.reordered hstring hf.level, h.json.reordered hboolean hf.json,
    h.stderr.reordered hboolean hf.stderr⟩

theorem Gives.reordered {v v' : Option Toml.Value} {f : Fields} (h : Gives v f)
    (hv : Option.Rel Toml.Value.Reordered v v') : ∃ f', Gives v' f' ∧ f.Reordered f' := by
  cases h with
  | absent =>
    cases hv
    exact ⟨_, .absent, .none, .none, .none⟩
  | @table es hknown =>
    cases hv with
    | @some _ w hw =>
      obtain ⟨gs, rfl⟩ : ∃ gs, w = .table gs := by
        cases hw with
        | same => exact ⟨_, rfl⟩
        | table => exact ⟨_, rfl⟩
      refine ⟨_, .table fun key hkey => hknown key (hw.mem_keys_iff.mpr hkey), ?_⟩
      exact ⟨hw.lookup "level", hw.lookup "json", hw.lookup "stderr"⟩
  | @array vs =>
    cases hv with
    | @some _ w hw =>
      obtain ⟨ws, rfl⟩ : ∃ ws, w = .array ws := by
        cases hw with
        | same => exact ⟨_, rfl⟩
        | array => exact ⟨_, rfl⟩
      exact ⟨_, .array, hw.getElem? 0, hw.getElem? 1, hw.getElem? 2⟩

/-- The order of keys does not matter. -/
theorem Holds.reordered {t t' : Toml.Entries} {s : Settings} (h : Holds t s)
    (ht : Toml.Value.Reordered (.table t) (.table t')) : Holds t' s := by
  obtain ⟨hkeys, f, hgives, hsets⟩ := h
  obtain ⟨f', hgives', hf⟩ := hgives.reordered (ht.lookup "logging")
  exact ⟨fun key hkey => hkeys key (ht.mem_keys_iff.mpr hkey), f', hgives', hsets.reordered hf⟩

/-! ## One table written in three ways -/

/-- The lines that write a table `logging` with some entries: below a header, as an inline table, or
with dotted keys. -/
inductive Writes (kvs : List (List String × String × Toml.Value)) : List Line → Prop
  | header : Writes kvs (.table [] "logging" :: kvs.map Line.ofPair)
  | inline {es : Item.Entries} (hes : Item.insertAll? [] kvs = some es) :
      Writes kvs [.pair [] "logging" (.table (Item.toEntries es))]
  | dotted : Writes kvs ((kvs.map (Toml.below "logging")).map Line.ofPair)

/-- The settings that the lines of a document hold. -/
def ofLines? (ls : List Line) : Option Settings :=
  (rootOf? ls).bind fun root => (ofEntries (Item.toEntries root)).toOption

/-- The settings of a table `logging` and nothing else. -/
def ofSection? (es : Item.Entries) : Option Settings :=
  (ofEntries [("logging", .table (Item.toEntries es))]).toOption

theorem Writes.ofLines?_eq {kvs : List (List String × String × Toml.Value)} {ls : List Line}
    (h : Writes kvs ls) : ofLines? ls = (Item.insertAll? [] kvs).bind ofSection? := by
  rw [Settings.ofLines?]
  cases h with
  | header =>
    rw [Toml.rootOf?_header, Option.bind_map]
    rfl
  | inline hes =>
    rw [hes]
    rfl
  | dotted =>
    rw [Toml.rootOf?_pairs]
    by_cases hkvs : kvs = []
    · subst hkvs
      rfl
    · rw [Item.insertAll?_nil_below "logging" hkvs, Option.bind_map]
      rfl

theorem toOption_eq_some_iff {ε α : Type} {r : Except ε α} {a : α} :
    r.toOption = some a ↔ r = .ok a := by
  cases r <;> simp [Except.toOption]

theorem parse_eq_ok_iff_read {text : String} {s : Settings} :
    parse text = .ok s ↔ ∃ t, Toml.read text = some t ∧ ofEntries t = .ok s := by
  rw [parse]
  cases Toml.read text with
  | none => simp
  | some t => cases hs : ofEntries t <;> simp [Except.mapError, hs]

theorem parse_eq_ok_iff_lines {text : String} {s : Settings} :
    parse text = .ok s ↔ ∃ ls, linesOf? text = some ls ∧ ofLines? ls = some s := by
  simp only [parse_eq_ok_iff_read, Toml.read_eq, ofLines?, Option.bind_eq_some_iff,
    Option.map_eq_some_iff, toOption_eq_some_iff]
  constructor
  · rintro ⟨t, ⟨ls, hls, root, hroot, rfl⟩, hs⟩
    exact ⟨ls, hls, root, hroot, hs⟩
  · rintro ⟨ls, hls, root, hroot, hs⟩
    exact ⟨_, ⟨ls, hls, root, hroot, rfl⟩, hs⟩

/-! ## Texts -/

/-- Both texts hold the same settings, or neither holds any. -/
def SameOutcome (text text' : String) : Prop := ∀ s, parse text = .ok s ↔ parse text' = .ok s

/-- A text that is a document holds what its root table holds. -/
theorem parse_eq_ok_iff {text : String} {t : Toml.Entries} (ht : Toml.read text = some t)
    {s : Settings} : parse text = .ok s ↔ Holds t s := by
  rw [parse_eq_ok_iff_read, ← ofEntries_eq_ok_iff (Toml.distinct_of_read ht)]
  constructor
  · rintro ⟨t', ht', hs⟩
    rwa [Option.some.inj (ht.symm.trans ht')]
  · intro hs
    exact ⟨t, ht, hs⟩

theorem Writes.sameOutcome {kvs : List (List String × String × Toml.Value)} {ls ls' : List Line}
    {text text' : String} (h : Writes kvs ls) (h' : Writes kvs ls')
    (hls : linesOf? text = some ls) (hls' : linesOf? text' = some ls') :
    SameOutcome text text' := by
  intro s
  rw [parse_eq_ok_iff_lines, parse_eq_ok_iff_lines, hls, hls']
  simp only [Option.some.injEq, exists_eq_left', h.ofLines?_eq, h'.ofLines?_eq]

/-- A document holds settings if and only if its root table has no other key than `logging`, and
each field that is given there has its type.  The settings are what is given and the defaults of
the other fields.  Neither the order of keys nor the way in which the table is written matters. -/
theorem parse_follows_schema {text : String} {t : Toml.Entries} (ht : Toml.read text = some t) :
    ((∃ s, parse text = .ok s) ↔
        (∀ key ∈ Toml.keys t, key = "logging") ∧ ∃ f, Gives (t.lookup "logging") f ∧ f.Typed) ∧
      (∀ s, parse text = .ok s →
        ∃ f, Gives (t.lookup "logging") f ∧ f.Sets ⟨"info", false, true⟩ s.logging) ∧
      (∀ text' t', Toml.read text' = some t' →
        Toml.Value.Reordered (.table t) (.table t') → SameOutcome text text') ∧
      ∀ kvs ls text' ls', linesOf? text = some ls → linesOf? text' = some ls' →
        Writes kvs ls → Writes kvs ls' → SameOutcome text text' := by
  refine ⟨?_, ?_, ?_, ?_⟩
  · simp only [parse_eq_ok_iff ht]
    constructor
    · rintro ⟨s, hkeys, f, hgives, hsets⟩
      exact ⟨hkeys, f, hgives, (Fields.typed_iff _).mpr ⟨_, hsets⟩⟩
    · rintro ⟨hkeys, f, hgives, htyped⟩
      obtain ⟨l, hsets⟩ := (Fields.typed_iff ⟨"info", false, true⟩).mp htyped
      exact ⟨⟨l⟩, hkeys, f, hgives, hsets⟩
  · intro s hs
    exact ((parse_eq_ok_iff ht).mp hs).2
  · intro text' t' ht' hreordered s
    rw [parse_eq_ok_iff ht, parse_eq_ok_iff ht']
    exact ⟨fun h => h.reordered hreordered, fun h => h.reordered hreordered.symm⟩
  · intro kvs ls text' ls' hls hls' h h'
    exact h.sameOutcome h' hls hls'

/-- One table below a header, inline with its keys in another order, and with dotted keys. -/
theorem parse_follows_schema_in_three_texts :
    let text := "[logging]\nlevel = \"debug\"\njson = true\n"
    let t : Toml.Entries :=
      [("logging", .table [("level", .string "debug"), ("json", .boolean true)])]
    Toml.read text = some t ∧ parse text = .ok ⟨⟨"debug", true, true⟩⟩ ∧
      SameOutcome text "logging = \x7b json = true, level = \"debug\" \x7d" ∧
      SameOutcome text "logging.level = \"debug\"\nlogging.json = true" := by
  intro text t
  have hread : Toml.read text = some t := by cbv
  obtain ⟨hsucceeds, hvalues, horder, hforms⟩ := parse_follows_schema hread
  refine ⟨hread, ?_, ?_, ?_⟩
  · have hfields : Fields.ofTable [("level", .string "debug"), ("json", .boolean true)] =
        ⟨some (.string "debug"), some (.boolean true), none⟩ := rfl
    have htyped : (Fields.ofTable [("level", .string "debug"), ("json", .boolean true)]).Typed := by
      rw [hfields]
      exact ⟨by simp, by simp, by simp⟩
    obtain ⟨⟨level, json, stderr⟩, hs⟩ :=
      hsucceeds.mpr ⟨by simp [t, Toml.keys], _, .table (by decide), htyped⟩
    obtain ⟨f, hgives, hsets⟩ := hvalues _ hs
    cases hgives with
    | table =>
      rw [hfields, Fields.sets_iff] at hsets
      simp only [Fields.goes_some, Fields.goes_none, Toml.Value.string.injEq,
        Toml.Value.boolean.injEq] at hsets
      obtain ⟨rfl, rfl, rfl⟩ := hsets
      exact hs
  · have hinline : Toml.read "logging = \x7b json = true, level = \"debug\" \x7d" =
        some [("logging", .table [("json", .boolean true), ("level", .string "debug")])] := by cbv
    refine horder _ _ hinline (.table (List.Perm.refl _) ?_)
    intro key v w hv hw
    obtain ⟨-, rfl⟩ := Prod.mk.inj (List.mem_singleton.mp hv)
    obtain ⟨-, rfl⟩ := Prod.mk.inj (List.mem_singleton.mp hw)
    refine .table (List.Perm.swap _ _ _) ?_
    intro key v w hv hw
    simp only [List.mem_cons, Prod.mk.injEq, List.not_mem_nil, or_false] at hv hw
    rcases hv with ⟨rfl, rfl⟩ | ⟨rfl, rfl⟩
    all_goals
      simp at hw
      exact hw ▸ .same _
  · have hheader : linesOf? text =
        some [.table [] "logging", .pair [] "level" (.string "debug"),
          .pair [] "json" (.boolean true)] := by cbv
    have hdotted : linesOf? "logging.level = \"debug\"\nlogging.json = true" =
        some [.pair ["logging"] "level" (.string "debug"),
          .pair ["logging"] "json" (.boolean true)] := by cbv
    exact hforms [([], "level", .string "debug"), ([], "json", .boolean true)] _ _ _
      hheader hdotted .header .dotted

end LiveEdit.Settings
