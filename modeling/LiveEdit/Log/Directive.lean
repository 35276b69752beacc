import LiveEdit.Log.Event
import LiveEdit.Text.Alphanumeric
import LiveEdit.Text.Blank
import LiveEdit.Text.Cut

/-!
# Directives

A directive lets through the events of a level and of the more important ones, for one target or
for all.  It is written `level`, `target` or `target=level`; without a level, every event of the
target passes.

The form of a directive is checked, and the place of its `=` is counted, without the blanks around
it.  Its parts are cut from the text with the blanks.  So blanks belong to the target, a level with
blanks is a target too, and behind blanks in front no `=` stands where it was counted.
-/

namespace LiveEdit

/-- The level with a number or a name.  A plus and zeros can stand in front of the number, and the
name can be in any case. -/
def Level.ofText? (cs : List Char) : Option Level :=
  let ds := match cs with
    | '+' :: ds => ds
    | ds => ds
  if !ds.isEmpty && ds.all Char.isDigit then
    Level.all[ds.foldl (fun n d => 10 * n + (d.toNat - '0'.toNat)) 0]?
  else Level.all.find? fun l => l.name.toList = cs.map Char.toLower

/-- A level, for the targets that start with `target`. -/
structure Directive where
  target : Option String
  level : Level
  deriving DecidableEq

/-- Why a text is no directive. -/
inductive DirectiveError where
  /-- It does not have the form of one. -/
  | malformed
  /-- A part of it would end or begin inside a character. -/
  | cut (fault : Text.CutFault)
  deriving DecidableEq

namespace Directive

/-- Characters with which a directive can start. -/
def canStart (c : Char) : Bool :=
  Text.isAlphanumeric c || c == '-' || c == ':' || c == '_'

/-- A directive without `=`: a level, or else a target. -/
def ofWord (cs : List Char) : Directive :=
  match Level.ofText? cs with
  | some l => ⟨none, l⟩
  | none => ⟨some (String.ofList cs), .trace⟩

/-- A directive whose target ends at a place, counted in bytes, and whose level begins behind the
next byte. -/
def cutAt (place : Nat) (cs : List Char) : Except DirectiveError Directive := do
  let (target, _) ← (Text.cut .stop place cs).mapError .cut
  let (_, level) ← (Text.cut .start (place + 1) cs).mapError .cut
  match if level.isEmpty then some Level.trace else Level.ofText? level with
  | some l => .ok ⟨some (String.ofList target), l⟩
  | none => .error .malformed

/-- The directive that a text writes. -/
def parse (cs : List Char) : Except DirectiveError Directive :=
  let core := Text.trim cs
  if !core.head?.any canStart then .error .malformed
  else if core.contains '=' then cutAt (Text.byteLength (core.takeWhile (· != '='))) cs
  else .ok (ofWord cs)

/-- A directive as text. -/
def render (d : Directive) : String :=
  match d.target with
  | some t => t ++ "=" ++ d.level.name
  | none => d.level.name

/-- Whether a directive is asked before another: the one with the longer target first, and of two
of one length the one whose target comes later.  A directive for all targets is asked last. -/
def before (a b : Directive) : Bool :=
  match a.target, b.target with
  | some s, some t =>
    t.utf8ByteSize < s.utf8ByteSize || (t.utf8ByteSize == s.utf8ByteSize && t < s)
  | some _, none => true
  | none, _ => false

/-- Whether a directive is about a target. -/
def covers (d : Directive) (target : String) : Bool :=
  d.target.all fun t => t.toList.isPrefixOf target.toList

end Directive

end LiveEdit
