import LiveEdit.Syntax.Node

/-!
# Building trees step by step

A `Builder` takes the starts and ends of nodes and the tokens between them, in source order, and
hands over a document root.  `Builder.Step` is one such step, and `Builder.build` runs a list of
steps.

The root is handed over when exactly one element has been finished, counting the elements of
nodes that are still open, and when that element is a node.
-/

namespace LiveEdit

/-- Why no tree came out of a builder. -/
inductive BuildError where
  /-- A node was started with the kind of a token. -/
  | tokenKind (kind : Kind)
  /-- A token was added with the kind of a node. -/
  | nodeKind (kind : Kind)
  /-- A token was added by kind alone, and its kind has no spelling. -/
  | noSpelling (kind : Kind)
  /-- A node was ended and none was open. -/
  | nothingOpen
  /-- The number of finished elements is not one. -/
  | elementCount (count : Nat)
  /-- The only element is a token. -/
  | tokenRoot
  deriving DecidableEq

/-- The text of a build error. -/
def BuildError.message : BuildError → String
  | .tokenKind k => k.name ++ " is a token kind"
  | .nodeKind k => k.name ++ " is a node kind"
  | .noSpelling k => k.name ++ " has no fixed spelling"
  | .nothingOpen => "called `Option::unwrap()` on a `None` value"
  | .elementCount n =>
    "assertion `left == right` failed\n  left: " ++ toString n ++ "\n right: 1"
  | .tokenRoot => "explicit panic"

/-- A tree in the making: the open nodes, innermost first, each with the elements that stood
before it, and the finished elements of the innermost one. -/
structure Builder where
  pending : List (Kind × List Tree)
  finished : List Tree
  deriving DecidableEq

namespace Builder

/-- Nothing is open and nothing is finished. -/
def empty : Builder := ⟨[], []⟩

/-- One step of building. -/
inductive Step where
  /-- Start a node. -/
  | start (kind : Kind)
  /-- End the innermost open node. -/
  | finish
  /-- Add a token. -/
  | token (kind : Kind) (text : String)
  /-- Add a token with the spelling of its kind. -/
  | punct (kind : Kind)
  /-- Add white space. -/
  | whitespace (text : String)
  /-- Start a node, run the steps, end a node. -/
  | node (kind : Kind) (steps : List Step)

/-- Open a node. -/
def start (b : Builder) (k : Kind) : Except BuildError Builder :=
  if k.isToken then .error (.tokenKind k) else .ok ⟨(k, b.finished) :: b.pending, []⟩

/-- Close the innermost open node. -/
def finish (b : Builder) : Except BuildError Builder :=
  match b.pending with
  | [] => .error .nothingOpen
  | (k, before) :: pending => .ok ⟨pending, before ++ [.node k.stored b.finished]⟩

/-- Append a token. -/
def token (b : Builder) (k : Kind) (text : String) : Except BuildError Builder :=
  if k.isToken then .ok { b with finished := b.finished ++ [.token k text] }
  else .error (.nodeKind k)

/-- Append a token with the spelling of its kind. -/
def punct (b : Builder) (k : Kind) : Except BuildError Builder :=
  match k.fixedText? with
  | none => .error (.noSpelling k)
  | some text => b.token k text

mutual

/-- Run one step. -/
def step (b : Builder) : Step → Except BuildError Builder
  | .start k => b.start k
  | .finish => b.finish
  | .token k text => b.token k text
  | .punct k => b.punct k
  | .whitespace text => b.token .whitespace text
  | .node k ss => do (← (← b.start k).steps ss).finish

/-- Run steps in order, up to the first that fails. -/
def steps (b : Builder) : List Step → Except BuildError Builder
  | [] => .ok b
  | s :: ss => do (← b.step s).steps ss

end

/-- The finished elements, those of open nodes included. -/
def elements (b : Builder) : List Tree := b.pending.reverse.flatMap (·.2) ++ b.finished

/-- The only finished element as the root of a document version. -/
def root (b : Builder) (version : Nat) : Except BuildError Node :=
  match b.elements with
  | [t] =>
    match t.plant? version with
    | some n => .ok n
    | none => .error .tokenRoot
  | ts => .error (.elementCount ts.length)

/-- A failed build: the cause, and the index of the step that failed unless the steps were fine
and the root was not. -/
structure Failure where
  step? : Option Nat
  cause : BuildError
  deriving DecidableEq

/-- Run steps from an index on, and take the root. -/
def buildFrom (b : Builder) (version index : Nat) : List Step → Except Failure Node
  | [] => (b.root version).mapError (⟨none, ·⟩)
  | s :: ss =>
    match b.step s with
    | .error e => .error ⟨some index, e⟩
    | .ok b => b.buildFrom version (index + 1) ss

/-- The root that a list of steps builds. -/
def build (version : Nat) (ss : List Step) : Except Failure Node :=
  empty.buildFrom version 0 ss

end Builder

end LiveEdit
