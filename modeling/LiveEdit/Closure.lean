import LiveEdit.Syntax.Identity
import LiveEdit.Syntax.Query

/-!
# Closures

Lambdas, anonymous methods and local functions are closures.  Each one runs as a state machine
of its own, so a walk over the code around it stops at it.

* `Node.closureBody?` is the block of a closure, or else the expression after its arrow.
* `Node.isClosureBody` asks the other way round whether a node is the body of the closure that
  owns it.
-/

namespace LiveEdit.Node

/-- Lambdas, anonymous methods and local functions. -/
def isClosure (n : Node) : Bool := n.kind.isLambda || n.kind == .localFunctionStatement

/-- The block of a closure, or else its expression.  A local function holds its expression in an
arrow clause. -/
def closureBody? (n : Node) : Option Node :=
  if n.kind.isLambda then n.block?.or n.expression?
  else if n.kind == .localFunctionStatement then n.block?.or n.arrowExpression?
  else none

/-- The closure that could own a node as its body: the parent, or the local function above an
arrow clause. -/
def closureAbove? (n : Node) : Option Node :=
  n.parent?.bind fun p =>
    if p.kind == .arrowExpressionClause then
      p.parent?.filter fun o => o.kind == .localFunctionStatement
    else some p

/-- Whether a node is the body of the closure above it. -/
def isClosureBody (n : Node) : Bool :=
  n.closureAbove?.any fun o => o.isClosure && o.closureBody?.any fun b => b.Same n

end LiveEdit.Node
