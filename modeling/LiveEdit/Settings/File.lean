import LiveEdit.Settings.Schema

/-!
# Settings from a file

`Settings.parse` takes the settings from a text.  `Settings.load` takes them from the file at a
path, given what stands at that path in an otherwise empty folder, and reports that it did.
-/

namespace LiveEdit

/-- What stands at a path in an otherwise empty folder. -/
inductive Content where
  | absent
  | folder
  | file (bytes : List UInt8)

/-- Why a file cannot be read. -/
inductive ReadError where
  | notFound | isFolder | nameTooLong | nulInName | notUtf8
  deriving DecidableEq

/-- The text of a read error. -/
def ReadError.message : ReadError → String
  | notFound => "No such file or directory (os error 2)"
  | isFolder => "Is a directory (os error 21)"
  | nameTooLong => "File name too long (os error 36)"
  | nulInName => "file name contained an unexpected NUL byte"
  | notUtf8 => "stream did not contain valid UTF-8"

namespace Content

/-- The greatest length of a path in bytes. -/
def maxPath : Nat := 4095

/-- The greatest length of one name of a path in bytes. -/
def maxName : Nat := 255

/-- The names of a path that are not the folder itself or the one around it. -/
def names (path : String) : List String :=
  ((Text.split '/' path.toList).map String.ofList).filter fun n =>
    !(["", ".", ".."].contains n)

/-- Whether a name is too long. -/
def isTooLong (name : String) : Bool := maxName < name.utf8ByteSize

/-- The error for a path at which nothing was put. -/
def missing (path : String) : ReadError :=
  match names path with
  | [] => .isFolder
  | n :: _ => if isTooLong n then .nameTooLong else .notFound

/-- The text at a path. -/
def readText (path : String) (content : Content) : Except ReadError String :=
  if path.toList.contains '\x00' then .error .nulInName
  else if maxPath < path.utf8ByteSize then .error .nameTooLong
  else if path.isEmpty then .error .notFound
  else
    match content with
    | absent => .error (missing path)
    | folder => .error (if (names path).any isTooLong then .nameTooLong else .isFolder)
    | file bytes =>
      if (names path).any isTooLong then .error .nameTooLong
      else if (names path).isEmpty || path.endsWith "/" then .error (missing path)
      else
        match String.fromUTF8? ⟨bytes.toArray⟩ with
        | some text => .ok text
        | none => .error .notUtf8

end Content

namespace Settings

/-- Why settings could not be taken. -/
inductive LoadError where
  | unreadable (path : String) (cause : ReadError)
  /-- The text is not a TOML document. -/
  | notToml
  | schema (cause : SchemaError)

/-- The settings that a text writes. -/
def parse (text : String) : Except LoadError Settings :=
  match Toml.read text with
  | none => .error .notToml
  | some es => (ofEntries es).mapError .schema

/-- The settings in the file at a path. -/
def load (path : String) (content : Content) : Logged (Except LoadError Settings) :=
  match content.readText path with
  | .error e => ⟨.error (.unreadable path e), []⟩
  | .ok text =>
    match parse text with
    | .error e => ⟨.error e, []⟩
    | .ok s => ⟨.ok s, [.settingsLoaded path]⟩

namespace LoadError

/-- The text of a load error; a text that is no document leaves none. -/
def message? : LoadError → Option String
  | unreadable path e => some ("failed to read config file " ++ path ++ ": " ++ e.message)
  | notToml => none
  | schema e => some ("failed to parse toml config: " ++ e.message)

end LoadError

end Settings

end LiveEdit
