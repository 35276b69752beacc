import LiveEdit.Body.Basic

/-!
# Questions about members

Small questions about constructors, properties, indexers and fields that are answered from the
tree alone.
-/

namespace LiveEdit.Node

/-- A constructor without parameters, or without a list of them. -/
def isParameterlessConstructor (n : Node) : Bool :=
  n.kind == .constructorDeclaration && n.parameterList?.all fun l => l.parameters.isEmpty

/-- Whether a property gets a field behind it: it is neither abstract nor extern, has no arrow
clause, and one of its accessors has no code. -/
def hasBackingField (n : Node) : Bool :=
  !(n.hasModifier .abstractKw || n.hasModifier .externKw) && n.arrow?.isNone
    && n.accessorList?.any fun l => l.accessors.any isAutoImplemented

/-- The modifiers of a field or a property; nothing for other nodes. -/
def fieldOrPropertyModifiers? (n : Node) : Option (List Token) :=
  if n.kind == .fieldDeclaration || n.kind == .propertyDeclaration then
    some ((n.modifiers?.map keywords).getD [])
  else none

/-- The first `get` accessor of a property or an indexer. -/
def getter? (n : Node) : Option Node :=
  n.accessorList?.bind fun l => l.accessors.find? fun a => a.kind == .getAccessorDeclaration

/-- The code that runs when a property or an indexer is read: the expression after its arrow, or
the body of its first `get` accessor.  An arrow without expression leaves no code. -/
def getterBody? (n : Node) : Option Body :=
  if n.kind == .propertyDeclaration || n.kind == .indexerDeclaration then
    match n.arrow? with
    | some a => a.expression?.map (Body.mk .expression)
    | none => n.getter?.bind blockOrArrow?
  else none

/-- Whether a list of type parameters is there and not empty. -/
def hasTypeParameters (list : Option Node) : Bool :=
  list.any fun l => !l.typeParameters.isEmpty

end LiveEdit.Node
