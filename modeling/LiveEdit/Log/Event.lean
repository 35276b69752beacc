import LiveEdit.Body.Shape

/-!
# Events

The analysis and the settings report what they do as events.  An event has a level, a target and
fields, and `Logged α` is a value together with the events of the work that made it, in order.
-/

namespace LiveEdit

/-- How important an event is, or which events a filter lets through.  Events are never `off`. -/
inductive Level where
  | off | error | warn | info | debug | trace
  deriving DecidableEq

namespace Level

/-- Every level, from the most silent to the most talkative. -/
def all : List Level := [off, error, warn, info, debug, trace]

/-- The name of a level. -/
def name : Level → String
  | off => "off"
  | error => "error"
  | warn => "warn"
  | info => "info"
  | debug => "debug"
  | trace => "trace"

/-- The position of a level: a higher one lets more events through. -/
def rank (l : Level) : Nat := l.ctorIdx

end Level

/-- The target of events of the analysis. -/
def analysisTarget : String := "enc.analysis"

/-- The target of events of the settings. -/
def settingsTarget : String := "enc.config"

/-- Something that was reported. -/
inductive Event where
  /-- The body of a declaration of kind `kind` was looked up. -/
  | bodyResolved (kind : Kind) (hasBody : Bool)
  /-- A node was taken for a body and is none. -/
  | shapeRefused (cause : ShapeError)
  /-- The suspension points below a node of kind `body` were counted. -/
  | pointsCollected (body : Kind) (count : Nat)
  /-- Two trees have different kinds `depth` steps down. -/
  | partnerDiverged (depth : Nat) (left right : Kind)
  /-- Settings were read from a file. -/
  | settingsLoaded (path : String)
  deriving DecidableEq

namespace Event

/-- The level of an event. -/
def level : Event → Level
  | bodyResolved .. => .trace
  | shapeRefused _ => .error
  | pointsCollected .. => .debug
  | partnerDiverged .. => .trace
  | settingsLoaded _ => .debug

/-- The target of an event. -/
def target : Event → String
  | settingsLoaded _ => settingsTarget
  | _ => analysisTarget

/-- The message of an event. -/
def message : Event → String
  | bodyResolved .. => "resolved declaration body"
  | shapeRefused _ => "invalid body shape"
  | pointsCollected .. => "collected suspension points"
  | partnerDiverged .. => "partner search diverged"
  | settingsLoaded _ => "loaded config"

/-- The fields of an event, each as text; the message is one of them. -/
def fields (e : Event) : List (String × String) :=
  ("message", e.message) :: match e with
    | bodyResolved k b => [("kind", k.name), ("has_body", toString b)]
    | shapeRefused c => [("error", c.message)]
    | pointsCollected k n => [("body", k.name), ("count", toString n)]
    | partnerDiverged d l r => [("depth", toString d), ("left", l.name), ("right", r.name)]
    | settingsLoaded p => [("path", p)]

end Event

/-- A value and the events of the work that made it. -/
structure Logged (α : Type) where
  value : α
  events : List Event
  deriving DecidableEq

/-- More events in front. -/
def Logged.after {α : Type} (r : Logged α) (es : List Event) : Logged α :=
  ⟨r.value, es ++ r.events⟩

end LiveEdit
