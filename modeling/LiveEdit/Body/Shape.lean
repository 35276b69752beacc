import LiveEdit.Closure

/-!
# The shape of a body

A node has the shape of a body if it stands where code may stand: as the body of a closure, as a
block, after an arrow, as the initial value of a field or a property, or as a compilation unit
of statements.  `Node.shape` names the place, or says why there is none.
-/

namespace LiveEdit

/-- The place in which a node is a body. -/
inductive Shape where
  | closureBody | block | arrowExpression | fieldInitializer | propertyInitializer
  | topLevelStatements
  deriving DecidableEq

/-- The name of a shape. -/
def Shape.name : Shape → String
  | closureBody => "ClosureBody"
  | block => "Block"
  | arrowExpression => "ArrowExpression"
  | fieldInitializer => "FieldInitializer"
  | propertyInitializer => "PropertyInitializer"
  | topLevelStatements => "TopLevelStatements"

/-- Why a node is not accepted as a body. -/
inductive ShapeError where
  | closureBodyNotAllowed (kind : Kind) (range : Range)
  | notABody (kind : Kind) (range : Range)
  deriving DecidableEq

/-- The text of a shape error. -/
def ShapeError.message : ShapeError → String
  | closureBodyNotAllowed k r =>
    k.name ++ " at " ++ r.render ++ " is a closure body, which is not allowed here"
  | notABody k r => k.name ++ " at " ++ r.render ++ " is not a body"

namespace Node

/-- The place of an expression that is a body outside closures, read off the nodes above it. -/
def initializerShape? (n : Node) : Option Shape :=
  n.parent?.bind fun p =>
    match p.kind with
    | .arrowExpressionClause => some .arrowExpression
    | .equalsValueClause =>
      match p.parent?.map Node.kind with
      | some .variableDeclarator => some .fieldInitializer
      | some .propertyDeclaration => some .propertyInitializer
      | _ => none
    | _ => none

/-- The place of a node that is no closure body. -/
def openShape? (n : Node) : Option Shape :=
  if n.kind == .block then some .block
  else
    (if n.kind.isExpression then n.initializerShape? else none).or <|
      if n.kind == .compilationUnit && n.startsWithStatement then some .topLevelStatements
      else none

/-- The place in which a node is a body.  A closure body is accepted on request only. -/
def shape (n : Node) (allowClosure : Bool) : Except ShapeError Shape :=
  if n.isClosureBody then
    if !allowClosure then .error (.closureBodyNotAllowed n.kind n.range)
    else if n.kind == .block || n.kind.isExpression then .ok .closureBody
    else .error (.notABody n.kind n.range)
  else
    match n.openShape? with
    | some s => .ok s
    | none => .error (.notABody n.kind n.range)

end Node

end LiveEdit
