import LiveEdit.Settings.Logging
import LiveEdit.Text.Quoted
import LiveEdit.Toml.Document
import LiveEdit.Decimal.Shortest

/-!
# Settings from a document

The settings are the entries of a TOML document.  The root table has one section, `logging`, with
the fields `level`, `json` and `stderr`; the section can also be an array of their values in that
order.  Fields that are not given have their default, and other fields are refused.
-/

namespace LiveEdit

/-- The settings. -/
structure Settings where
  logging : Logging
  deriving DecidableEq

namespace Settings

/-- The settings that hold if nothing else is set. -/
def default : Settings := ⟨.default⟩

/-- The type of value that a field wants. -/
inductive FieldType where
  | string | boolean | loggingSection
  deriving DecidableEq

/-- Why a document does not hold settings. -/
inductive SchemaError where
  | unknownField (name : String) (known : List String)
  | wrongType (found : Toml.Value) (wanted : FieldType)

/-- The field that a date or a time is shown as, where a table is wanted. -/
def dateTimeField : String := "$__toml_private_datetime"

/-- The fields of the logging section, in order. -/
def loggingFields : List String := ["level", "json", "stderr"]

/-- The fields of the root table. -/
def rootFields : List String := ["logging"]

namespace SchemaError

/-- A value as an error describes it. -/
def describe : Toml.Value → String
  | .string s => "string " ++ Text.quoted s
  | .integer i => "integer `" ++ toString i ++ "`"
  | .float x => "floating point `" ++ x.render ++ "`"
  | .boolean b => "boolean `" ++ toString b ++ "`"
  | .dateTime _ | .table _ => "map"
  | .array _ => "sequence"

/-- A wanted type as an error describes it. -/
def describeWanted : FieldType → String
  | .string => "a string"
  | .boolean => "a boolean"
  | .loggingSection => "struct LoggingConfig"

/-- Names between backquotes, as a choice if there are more than one. -/
def describeKnown : List String → String
  | [name] => "`" ++ name ++ "`"
  | names => "one of " ++ ", ".intercalate (names.map fun n => "`" ++ n ++ "`")

/-- The text of a schema error. -/
def message : SchemaError → String
  | unknownField name known => "unknown field `" ++ name ++ "`, expected " ++ describeKnown known
  | wrongType found wanted =>
    "invalid type: " ++ describe found ++ ", expected " ++ describeWanted wanted

end SchemaError

/-- A text. -/
def stringOf : Toml.Value → Except SchemaError String
  | .string s => .ok s
  | v => .error (.wrongType v .string)

/-- A truth value. -/
def booleanOf : Toml.Value → Except SchemaError Bool
  | .boolean b => .ok b
  | v => .error (.wrongType v .boolean)

/-- The logging settings with one field set. -/
def setField (l : Logging) (name : String) (v : Toml.Value) : Except SchemaError Logging :=
  if name = "level" then (stringOf v).map fun s => { l with level := s }
  else if name = "json" then (booleanOf v).map fun b => { l with json := b }
  else if name = "stderr" then (booleanOf v).map fun b => { l with stderr := b }
  else .error (.unknownField name loggingFields)

/-- The logging settings with fields set one after the other, up to the first that is refused. -/
def setFields (l : Logging) : Toml.Entries → Except SchemaError Logging
  | [] => .ok l
  | (name, v) :: es => do setFields (← setField l name v) es

/-- The logging section. -/
def loggingOf : Toml.Value → Except SchemaError Logging
  | .table es => setFields .default es
  | .array vs => setFields .default (loggingFields.zip vs)
  | .dateTime _ => .error (.unknownField dateTimeField loggingFields)
  | v => .error (.wrongType v .loggingSection)

/-- The settings with root fields set one after the other. -/
def setRoot (s : Settings) : Toml.Entries → Except SchemaError Settings
  | [] => .ok s
  | (name, v) :: es =>
    if name = "logging" then do setRoot { s with logging := ← loggingOf v } es
    else .error (.unknownField name rootFields)

/-- The settings that a root table holds. -/
def ofEntries (es : Toml.Entries) : Except SchemaError Settings := setRoot .default es

end Settings

end LiveEdit
