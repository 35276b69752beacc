import LiveEdit.Text.Quoted

/-!
# Cuts at byte places

`cut` divides a text behind a number of bytes.  A place inside a character is a fault, and
`CutFault.message` names that character.  A place behind whole characters divides the text there.
-/

namespace LiveEdit.Text

/-- The length of characters in bytes. -/
def byteLength : List Char → Nat
  | [] => 0
  | c :: cs => c.utf8Size + byteLength cs

/-- The end of a piece that a cut makes. -/
inductive CutSide where
  | start | stop
  deriving DecidableEq

/-- The name of a side. -/
def CutSide.name : CutSide → String
  | start => "start"
  | stop => "end"

/-- A place, in bytes, inside a character that starts at `charStart`. -/
structure CutFault where
  side : CutSide
  place : Nat
  char : Char
  charStart : Nat
  deriving DecidableEq

/-- The text of a cut fault. -/
def CutFault.message (f : CutFault) : String :=
  f.side.name ++ " byte index " ++ toString f.place
    ++ " is not a char boundary; it is inside '" ++ quotedChar f.char ++ "' (bytes "
    ++ toString f.charStart ++ ".." ++ toString (f.charStart + f.char.utf8Size) ++ " of string)"

/-- The characters before a place and those behind it, in a text that starts at byte `passed`.
A place behind the end leaves nothing. -/
def cutFrom (side : CutSide) (passed place : Nat) :
    List Char → Except CutFault (List Char × List Char)
  | [] => .ok ([], [])
  | c :: cs =>
    if place ≤ passed then .ok ([], c :: cs)
    else if place < passed + c.utf8Size then .error ⟨side, place, c, passed⟩
    else (cutFrom side (passed + c.utf8Size) place cs).map fun p => (c :: p.1, p.2)

/-- The characters before a place and those behind it. -/
def cut (side : CutSide) (place : Nat) (cs : List Char) :
    Except CutFault (List Char × List Char) :=
  cutFrom side 0 place cs

end LiveEdit.Text
