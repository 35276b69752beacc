import LiveEdit.Log.Directive
import LiveEdit.Text.Split

/-!
# Filters

A filter is a list of directives, in the order in which they are asked.  The first directive about
an event's target decides whether the event passes.
-/

namespace LiveEdit

/-- Directives in the order in which they are asked, one for each target. -/
structure Filter where
  directives : List Directive
  deriving DecidableEq

namespace Filter

/-- A directive among others at its place.  It takes the place of the one for the same target. -/
def place (d : Directive) : List Directive → List Directive
  | [] => [d]
  | e :: es =>
    if d.target = e.target then d :: es
    else if d.before e then d :: e :: es
    else e :: place d es

/-- The filter of a list of directives. -/
def ofDirectives (ds : List Directive) : Filter := ⟨ds.foldl (fun es d => place d es) []⟩

/-- Every piece of a text between commas that is not empty. -/
def pieces (cs : List Char) : List (List Char) := (Text.split ',' cs).filter (!·.isEmpty)

/-- The filter that a text writes: directives with commas between them.  The first piece that is no
directive spoils the text. -/
def parse (cs : List Char) : Except DirectiveError Filter :=
  ((pieces cs).mapM Directive.parse).map ofDirectives

/-- A filter as text. -/
def render (f : Filter) : String := ",".intercalate (f.directives.map Directive.render)

/-- Whether events of a level and a target pass. -/
def allows (f : Filter) (target : String) (level : Level) : Bool :=
  (f.directives.find? fun d => d.covers target).any fun d => level.rank ≤ d.level.rank

/-- The events that pass. -/
def passing (f : Filter) (es : List Event) : List Event :=
  es.filter fun e => f.allows e.target e.level

end Filter

end LiveEdit
