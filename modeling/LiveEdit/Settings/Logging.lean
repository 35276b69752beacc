import LiveEdit.Log.Filter
import LiveEdit.Text.Blank

/-!
# How events are logged

The level setting is either the name of a level or a list of directives.  `Logging.directives`
turns it into directives, and `Logging.filter` joins them with those of the environment.
-/

namespace LiveEdit

/-- The logging settings. -/
structure Logging where
  /-- The name of a level, or directives. -/
  level : String
  /-- Lines are written as JSON. -/
  json : Bool
  /-- Lines are written at all. -/
  stderr : Bool
  deriving DecidableEq

namespace Logging

/-- The settings that hold if nothing else is set. -/
def default : Logging := ⟨"info", false, true⟩

/-- The level setting as directives.  A name of a level can be in any case, `warning` means `warn`,
and no text means the default level. -/
def directivesOf (level : List Char) : List Char :=
  let level := Text.trim level
  let name := level.map Char.toLower
  if name.isEmpty then default.level.toList
  else if name = "warning".toList then "warn".toList
  else if (["trace", "debug", "info", "warn", "error"].map String.toList).contains name then name
  else level

/-- The directives of the level setting. -/
def directives (l : Logging) : String := String.ofList (directivesOf l.level.toList)

/-- The texts that are tried as a filter, in order: both sources together, the environment alone,
the settings alone.  A blank environment is none. -/
def candidates (configured : List Char) (environment : Option (List Char)) : List (List Char) :=
  ((environment.map Text.trim).filter fun e => !e.isEmpty).toList.flatMap
    (fun e => [configured ++ ',' :: e, e]) ++ [configured]

/-- The filter for when no text can be read. -/
def fallback : Filter := ⟨[⟨none, .info⟩]⟩

/-- The first of some texts that `read` accepts.  A cut inside a character ends the search. -/
def firstReadable (read : List Char → Except DirectiveError Filter) :
    List (List Char) → Except Text.CutFault (Option Filter)
  | [] => .ok none
  | cs :: rest =>
    match read cs with
    | .ok f => .ok (some f)
    | .error .malformed => firstReadable read rest
    | .error (.cut f) => .error f

/-- The filter of the settings and of the environment's directives, which `read` reads. -/
def filterWith (read : List Char → Except DirectiveError Filter) (l : Logging)
    (environment : Option String) : Except Text.CutFault Filter :=
  (firstReadable read (candidates (directivesOf l.level.toList)
    (environment.map String.toList))).map fun f => f.getD fallback

/-- The filter of the settings and of the environment's directives. -/
def filter : Logging → Option String → Except Text.CutFault Filter := filterWith Filter.parse

end Logging

end LiveEdit
