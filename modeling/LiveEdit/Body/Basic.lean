import LiveEdit.Declaration
import LiveEdit.Log.Event

/-!
# Bodies

A `Body` is the code that a declaration owns: a block, an expression, or the statements of a
compilation unit.

* `Declaration.ownBody?` is the body of a declaration.
* `Declaration.body` looks it up, checks that it has the shape of a body, and reports both.
* `Node.owner` is the innermost declaration whose body holds a node.
-/

namespace LiveEdit

/-- The forms of bodies. -/
inductive Body.Form where
  | block | expression
  /-- The statements of a compilation unit. -/
  | topLevel
  deriving DecidableEq

/-- The name of a form. -/
def Body.Form.name : Body.Form → String
  | block => "block"
  | expression => "expression"
  | topLevel => "top_level"

/-- The code that a declaration or a compilation unit owns. -/
structure Body where
  form : Body.Form
  node : Node
  deriving DecidableEq

/-- Whether a node is the body or lies in it. -/
def Body.contains (b : Body) (n : Node) : Bool := n.ancestors.any fun a => a.Same b.node

namespace Node

/-- The block of a member, or else the expression after its arrow. -/
def blockOrArrow? (n : Node) : Option Body :=
  (n.block?.map (Body.mk .block)).or (n.arrowExpression?.map (Body.mk .expression))

/-- The block of a lambda, or else its expression. -/
def blockOrExpression? (n : Node) : Option Body :=
  (n.block?.map (Body.mk .block)).or (n.expression?.map (Body.mk .expression))

/-- The statements of a compilation unit, if it starts with one. -/
def topLevelBody? (n : Node) : Option Body :=
  if n.startsWithStatement then some ⟨.topLevel, n⟩ else none

end Node

namespace Declaration

/-- A local function, a lambda or an anonymous method. -/
def isClosure (d : Declaration) : Bool := d.form.isClosure

/-- The body of a declaration.  A property owns its initial value only; the expression after the
arrow of a property or an indexer is the body of the arrow clause. -/
def ownBody? (d : Declaration) : Option Body :=
  match d.form with
  | .method | .constructor | .destructor | .operator | .conversionOperator | .accessor
  | .localFunction => d.node.blockOrArrow?
  | .lambda => d.node.blockOrExpression?
  | .property => (d.node.equalsValue?.bind Node.expression?).map (Body.mk .expression)
  | .indexer => none
  | .arrowClause =>
    if d.node.parent?.any fun p =>
        p.kind == .propertyDeclaration || p.kind == .indexerDeclaration then
      d.node.expression?.map (Body.mk .expression)
    else none

end Declaration

/-- A node was resolved as a body and does not have the shape of one. -/
structure BodyFault where
  cause : ShapeError
  deriving DecidableEq

/-- The text of a body fault. -/
def BodyFault.message (f : BodyFault) : String :=
  "internal consistency failure: " ++ f.cause.message

/-- Checks that a node has the shape of a body. -/
def Node.requireBody (n : Node) (allowClosure : Bool) : Logged (Except BodyFault Unit) :=
  match n.shape allowClosure with
  | .ok _ => ⟨.ok (), []⟩
  | .error e => ⟨.error ⟨e⟩, [.shapeRefused e]⟩

/-- The body of a declaration, checked and reported. -/
def Declaration.body (d : Declaration) : Logged (Except BodyFault (Option Body)) :=
  match d.ownBody? with
  | none => ⟨.ok none, [.bodyResolved d.node.kind false]⟩
  | some b =>
    match b.node.requireBody d.isClosure with
    | ⟨.error f, es⟩ => ⟨.error f, es⟩
    | ⟨.ok (), es⟩ => ⟨.ok (some b), es ++ [.bodyResolved d.node.kind true]⟩

/-- The first declaration whose body holds a node.  Every declaration up to it is looked up. -/
def Declaration.firstAround (n : Node) :
    List Declaration → Logged (Except BodyFault (Option Declaration))
  | [] => ⟨.ok none, []⟩
  | d :: ds =>
    match d.body with
    | ⟨.error f, es⟩ => ⟨.error f, es⟩
    | ⟨.ok b, es⟩ =>
      if b.any (·.contains n) then ⟨.ok (some d), es⟩ else (firstAround n ds).after es

/-- The innermost declaration above a node whose body holds the node.  Declarations on the way up
whose code lies elsewhere are passed over. -/
def Node.owner (n : Node) : Logged (Except BodyFault (Option Declaration)) :=
  Declaration.firstAround n (n.properAncestors.filterMap Node.declaration?)

end LiveEdit
