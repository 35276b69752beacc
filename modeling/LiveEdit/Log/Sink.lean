import LiveEdit.Settings.Logging

/-!
# The sink of a process

A process writes its events to one sink.  The first request to install the sink settles it, also if
the request is to write nothing; later requests change nothing.
-/

namespace LiveEdit

/-- Where the events of a process go. -/
inductive Sink where
  /-- No sink was asked for. -/
  | unset
  /-- It was asked for writing nothing. -/
  | silent
  /-- Events that pass the filter are written, perhaps as JSON. -/
  | writing (filter : Filter) (json : Bool)

namespace Sink

/-- The sink after a request, and whether the request installed it. -/
def install (s : Sink) (settings : Logging) (environment : Option String) :
    Except Text.CutFault (Sink × Bool) :=
  match s with
  | unset =>
    if settings.stderr then
      (settings.filter environment).map fun f => (writing f settings.json, true)
    else .ok (silent, false)
  | _ => .ok (s, false)

/-- The sink after some requests, and which of them installed it. -/
def installAll (environment : Option String) (s : Sink) :
    List Logging → Except Text.CutFault (Sink × List Bool)
  | [] => .ok (s, [])
  | settings :: rest => do
    let (s, installed) ← s.install settings environment
    let (s, others) ← installAll environment s rest
    .ok (s, installed :: others)

/-- The events that are written. -/
def written (s : Sink) (es : List Event) : List Event :=
  match s with
  | writing f _ => f.passing es
  | _ => []

/-- Whether events are written as JSON. -/
def isJson : Sink → Bool
  | writing _ json => json
  | _ => false

end Sink

end LiveEdit
