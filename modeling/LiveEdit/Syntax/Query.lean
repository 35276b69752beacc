import LiveEdit.Syntax.Walk

/-!
# Asking a node for its parts

The first group of functions looks at the direct children of a node: the first child node of some
kinds, all of them, the first token of a kind.  On top of them stand the parts that have a name
of their own, such as `Node.block?` or `Node.parameterList?`.  The last group searches a whole
subtree in source order.
-/

namespace LiveEdit

/-- Parameters in `( ... )` of a method or an operator, or in `[ ... ]` of an indexer. -/
def Kind.isParameterList : Kind → Bool
  | .parameterList | .bracketedParameterList => true
  | _ => false

namespace Node

/-! ### Direct children -/

/-- The first child node of an accepted kind. -/
def child? (n : Node) (accepts : Kind → Bool) : Option Node :=
  n.childNodes.find? fun m => accepts m.kind

/-- The child nodes of an accepted kind. -/
def childrenOf (n : Node) (accepts : Kind → Bool) : List Node :=
  n.childNodes.filter fun m => accepts m.kind

/-- The first child node of a kind. -/
def childOf? (n : Node) (k : Kind) : Option Node := n.child? (· == k)

/-- The first token of a kind. -/
def token? (n : Node) (k : Kind) : Option Token := n.tokens.find? fun t => t.kind == k

/-- The tokens of a kind. -/
def tokensOf (n : Node) (k : Kind) : List Token := n.tokens.filter fun t => t.kind == k

/-- The first identifier. -/
def identifier? (n : Node) : Option Token := n.token? .identifier

/-! ### Named parts -/

/-- The node that holds the modifiers. -/
def modifiers? (n : Node) : Option Node := n.childOf? .modifiers

/-- The tokens of a node that are not white space or comments. -/
def keywords (n : Node) : List Token := n.tokens.filter fun t => !t.kind.isTrivia

/-- Whether the first list of modifiers holds a keyword. -/
def hasModifier (n : Node) (k : Kind) : Bool :=
  n.modifiers?.any fun m => (m.token? k).isSome

/-- The block of a member or a closure. -/
def block? (n : Node) : Option Node := n.childOf? .block

/-- The arrow clause of a member. -/
def arrow? (n : Node) : Option Node := n.childOf? .arrowExpressionClause

/-- The expression of a clause, a lambda or an `await`. -/
def expression? (n : Node) : Option Node := n.child? Kind.isExpression

/-- The expression after the arrow of a member. -/
def arrowExpression? (n : Node) : Option Node := n.arrow?.bind expression?

/-- The list of parameters. -/
def parameterList? (n : Node) : Option Node := n.child? Kind.isParameterList

/-- The parameters of a list. -/
def parameters (n : Node) : List Node := n.childrenOf (· == .parameter)

/-- The list of type parameters. -/
def typeParameterList? (n : Node) : Option Node := n.childOf? .typeParameterList

/-- The type parameters of a list. -/
def typeParameters (n : Node) : List Node := n.childrenOf (· == .typeParameter)

/-- The list of accessors. -/
def accessorList? (n : Node) : Option Node := n.childOf? .accessorList

/-- The accessors of a list. -/
def accessors (n : Node) : List Node := n.childrenOf Kind.isAccessor

/-- The `= value` clause. -/
def equalsValue? (n : Node) : Option Node := n.childOf? .equalsValueClause

/-- The variable declaration of a field or of a local declaration. -/
def variableDeclaration? (n : Node) : Option Node := n.childOf? .variableDeclaration

/-- The `await` token. -/
def await? (n : Node) : Option Token := n.token? .awaitKw

/-- An accessor without block and without arrow clause. -/
def isAutoImplemented (n : Node) : Bool := n.block?.isNone && n.arrow?.isNone

/-- A compilation unit of statements: its first member is one.  Statements come before all other
members. -/
def startsWithStatement (n : Node) : Bool :=
  n.childNodes.head?.any fun m => m.kind == .globalStatement

/-! ### Whole subtrees -/

/-- The nodes of a kind at and below a node. -/
def all (n : Node) (k : Kind) : List Node := n.preorder.filter fun m => m.kind == k

/-- The first node of a kind at or below a node. -/
def first? (n : Node) (k : Kind) : Option Node := n.preorder.find? fun m => m.kind == k

/-- The first identifier below a node that is spelled `text`. -/
def identifierNamed? (n : Node) (text : String) : Option Token :=
  (n.content.filterMap Element.token?).find? fun t => t.kind == .identifier && t.text == text

end Node

/-- What a search did not find. -/
inductive LookupError where
  | noNode (kind : Kind)
  | noIdentifier (text : String)
  deriving DecidableEq

/-- The text of a failed search. -/
def LookupError.message : LookupError → String
  | .noNode k => "no " ++ k.name ++ " node in tree"
  | .noIdentifier text => "no identifier `" ++ text ++ "` in tree"

namespace Node

/-- The first node of a kind, which has to be there. -/
def first (n : Node) (k : Kind) : Except LookupError Node :=
  match n.first? k with
  | some m => .ok m
  | none => .error (.noNode k)

/-- The first identifier spelled `text`, which has to be there. -/
def identifierNamed (n : Node) (text : String) : Except LookupError Token :=
  match n.identifierNamed? text with
  | some t => .ok t
  | none => .error (.noIdentifier text)

/-! ### What the questions answer -/

theorem mem_childNodes_of_child? {n m : Node} {accepts : Kind → Bool}
    (h : n.child? accepts = some m) : m ∈ n.childNodes :=
  List.mem_of_find?_eq_some h

theorem accepts_of_child? {n m : Node} {accepts : Kind → Bool}
    (h : n.child? accepts = some m) : accepts m.kind = true := by
  simpa using List.find?_some h

/-- The first child of a kind is the head of the children of that kind. -/
theorem child?_eq_head?_childrenOf (n : Node) (accepts : Kind → Bool) :
    n.child? accepts = (n.childrenOf accepts).head? :=
  (List.head?_filter ..).symm

end Node

end LiveEdit
