import LiveEdit.Closure
import LiveEdit.Log.Event

/-!
# Suspension points

The code of one state machine is what a walk reaches without going into a closure.  Some nodes of
it suspend the machine.  `Node.suspension?` recognises them, `Node.suspensionPoints` lists those at
which the machine can resume, and `Node.isGenerator` tells whether the machine yields values.
-/

namespace LiveEdit

/-- The ways in which a state machine suspends. -/
inductive SuspensionKind where
  /-- An `await e`. -/
  | awaitExpression
  /-- A `yield return e;`. -/
  | yieldReturn
  /-- A `yield break;`. -/
  | yieldBreak
  /-- An `await foreach (...)`. -/
  | awaitForEach
  /-- An `await using (...)`, or one declarator of `await using var ...;`. -/
  | awaitUsing
  deriving DecidableEq

namespace SuspensionKind

/-- Every kind. -/
def all : List SuspensionKind :=
  [awaitExpression, yieldReturn, yieldBreak, awaitForEach, awaitUsing]

/-- The name of a kind. -/
def name : SuspensionKind → String
  | awaitExpression => "await_expression"
  | yieldReturn => "yield_return"
  | yieldBreak => "yield_break"
  | awaitForEach => "await_for_each"
  | awaitUsing => "await_using"

/-- The kind of a name. -/
def ofName? (s : String) : Option SuspensionKind := all.find? (·.name == s)

/-- Whether the machine keeps a state to resume in.  After `yield break` it never resumes. -/
def isResumable : SuspensionKind → Bool
  | yieldBreak => false
  | _ => true

/-- Whether the statement marks a generator. -/
def isGenerator : SuspensionKind → Bool
  | yieldReturn | yieldBreak => true
  | _ => false

end SuspensionKind

/-- A node at which a state machine can suspend and resume. -/
structure SuspensionPoint where
  kind : SuspensionKind
  node : Node
  deriving DecidableEq

namespace Node

/-- The way in which a node suspends, if it does.  In `await using` with declarators, each
declarator suspends and the statement does not. -/
def suspension? (n : Node) : Option SuspensionKind :=
  match n.kind with
  | .awaitExpression => some .awaitExpression
  | .yieldReturnStatement => some .yieldReturn
  | .yieldBreakStatement => some .yieldBreak
  | .forEachStatement => n.await?.map fun _ => .awaitForEach
  | .usingStatement => n.await?.map fun _ => .awaitUsing
  | .variableDeclarator =>
    ((n.parent?.bind parent?).filter fun s => s.kind == .localDeclarationStatement).bind fun s =>
      s.await?.map fun _ => .awaitUsing
  | _ => none

/-- The nodes of the state machine that starts at a node: closures are listed and not entered. -/
def ownCode (n : Node) : List Node := n.walk fun m => !m.isClosure

/-- A node as a point at which its machine can resume. -/
def resumePoint? (n : Node) : Option SuspensionPoint :=
  (n.suspension?.filter SuspensionKind.isResumable).map fun k => ⟨k, n⟩

/-- The points at which the machine of a node can suspend and resume, in source order. -/
def resumePoints (n : Node) : List SuspensionPoint := n.ownCode.filterMap resumePoint?

/-- The points of the machine of a node, counted in an event. -/
def suspensionPoints (n : Node) : Logged (List SuspensionPoint) :=
  ⟨n.resumePoints, [.pointsCollected n.kind n.resumePoints.length]⟩

/-- Whether the machine of a node yields.  A lone `yield break` is enough. -/
def isGenerator (n : Node) : Bool :=
  n.ownCode.any fun m => m.suspension?.any SuspensionKind.isGenerator

end Node

end LiveEdit
