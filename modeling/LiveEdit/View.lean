import LiveEdit.Declaration

/-!
# Views

A `View` reads the nodes of some kinds under the names that their parts have.  A node can be read
in more than one view: a block, for instance, is a block and a statement.  `Node.readings` reads a
node in every view that accepts its kind.
-/

namespace LiveEdit

/-- What a view finds under one name. -/
inductive Reading where
  | child (n : Option Node)
  | children (ns : List Node)
  | token (t : Option Token)
  | tokens (ts : List Token)
  | flag (b : Bool)
  | kind (k : Kind)
  | kinds (ks : List Kind)

/-- A way to read nodes of some kinds. -/
structure View where
  name : String
  accepts : Kind → Bool
  parts : List (String × (Node → Reading))

namespace View

/-- The kinds of tokens that satisfy a test, in numeric order. -/
def tokenKinds (p : Kind → Bool) : List Kind := Kind.all.filter fun k => k.isToken && p k

/-- The parts of a view that has modifiers. -/
def modifierParts : List (String × (Node → Reading)) :=
  [("modifiers", fun n => .child n.modifiers?),
    ("has_modifier", fun n => .kinds (tokenKinds n.hasModifier))]

/-- The parts of a view that has a block or an arrow clause. -/
def bodyParts : List (String × (Node → Reading)) :=
  [("body", fun n => .child n.block?), ("expression_body", fun n => .child n.arrow?)]

/-- The part for a name. -/
def namePart : String × (Node → Reading) := ("name_token", fun n => .token n.identifier?)

/-- The part for a list of parameters. -/
def parametersPart : String × (Node → Reading) :=
  ("parameter_list", fun n => .child n.parameterList?)

/-- The part for a list of accessors. -/
def accessorsPart : String × (Node → Reading) :=
  ("accessor_list", fun n => .child n.accessorList?)

/-- The part for an arrow clause. -/
def arrowPart : String × (Node → Reading) := ("expression_body", fun n => .child n.arrow?)

/-- The part for an expression. -/
def expressionPart : String × (Node → Reading) := ("expression", fun n => .child n.expression?)

/-- The part for an `await` token. -/
def awaitPart : String × (Node → Reading) := ("await_token", fun n => .token n.await?)

/-- A view of the nodes of one kind. -/
def ofKind (k : Kind) (parts : List (String × (Node → Reading))) : View := ⟨k.name, (· == k), parts⟩

/-- Every view. -/
def all : List View := [
  ofKind .compilationUnit
    [("global_statements", fun n => .children (n.childrenOf (· == .globalStatement))),
      ("members", fun n => .children n.childNodes),
      ("contains_global_statements", fun n => .flag n.startsWithStatement)],
  ofKind .globalStatement [],
  ofKind .modifiers
    [("keywords", fun n => .tokens n.keywords),
      ("has", fun n => .kinds (tokenKinds fun k => (n.token? k).isSome))],
  ofKind .typeParameterList [("type_parameters", fun n => .children n.typeParameters)],
  ofKind .typeParameter [],
  ⟨"ParameterList", Kind.isParameterList,
    [("parameters", fun n => .children n.parameters),
      ("is_empty", fun n => .flag n.parameters.isEmpty)]⟩,
  ofKind .parameter [namePart],
  ofKind .methodDeclaration <|
    [namePart, ("type_parameter_list", fun n => .child n.typeParameterList?), parametersPart]
      ++ modifierParts ++ bodyParts,
  ofKind .constructorDeclaration ([namePart, parametersPart] ++ modifierParts ++ bodyParts),
  ofKind .destructorDeclaration ([namePart] ++ modifierParts ++ bodyParts),
  ofKind .operatorDeclaration ([parametersPart] ++ modifierParts ++ bodyParts),
  ofKind .conversionOperatorDeclaration (modifierParts ++ bodyParts),
  ofKind .propertyDeclaration <|
    [namePart, accessorsPart, arrowPart, ("initializer", fun n => .child n.equalsValue?)]
      ++ modifierParts,
  ofKind .indexerDeclaration ([parametersPart, accessorsPart, arrowPart] ++ modifierParts),
  ofKind .eventDeclaration ([accessorsPart] ++ modifierParts),
  ofKind .fieldDeclaration <|
    [("declaration", fun n => .child n.variableDeclaration?)] ++ modifierParts,
  ofKind .accessorList [("accessors", fun n => .children n.accessors)],
  ⟨"AccessorDeclaration", Kind.isAccessor,
    [("kind", fun n => .kind n.kind),
      ("is_getter", fun n => .flag (n.kind == .getAccessorDeclaration)),
      ("is_auto_implemented", fun n => .flag n.isAutoImplemented)] ++ modifierParts ++ bodyParts⟩,
  ofKind .arrowExpressionClause [expressionPart],
  ofKind .equalsValueClause [("value", fun n => .child n.expression?)],
  ofKind .variableDeclaration
    [("declarators", fun n => .children (n.childrenOf (· == .variableDeclarator)))],
  ofKind .variableDeclarator [namePart, ("initializer", fun n => .child n.equalsValue?)],
  ofKind .block [("statements", fun n => .children (n.childrenOf Kind.isStatement))],
  ofKind .localDeclarationStatement
    [awaitPart, ("using_token", fun n => .token (n.token? .usingKw)),
      ("declaration", fun n => .child n.variableDeclaration?)],
  ofKind .localFunctionStatement ([namePart, parametersPart] ++ modifierParts ++ bodyParts),
  ofKind .forEachStatement [awaitPart],
  ofKind .usingStatement [awaitPart],
  ofKind .yieldReturnStatement [expressionPart],
  ofKind .yieldBreakStatement [],
  ofKind .awaitExpression [expressionPart],
  ⟨"LambdaExpression", Kind.isLambda,
    [("body", fun n => .child n.block?), ("expression_body", fun n => .child n.expression?),
      ("async_token", fun n => .token (n.modifiers?.bind (·.token? .asyncKw)))]
      ++ modifierParts⟩,
  ⟨"Statement", Kind.isStatement, []⟩,
  ⟨"Expression", Kind.isExpression, []⟩,
  ⟨"Declaration", Kind.isDeclaration,
    [("is_closure", fun n => .flag (n.declaration?.any (·.form.isClosure)))]⟩]

/-- A view's reading of a node. -/
def read (v : View) (n : Node) : List (String × Reading) := v.parts.map fun p => (p.1, p.2 n)

end View

/-- The readings of a node in the views that accept its kind, under the names of the views. -/
def Node.readings (n : Node) : List (String × List (String × Reading)) :=
  (View.all.filter fun v => v.accepts n.kind).map fun v => (v.name, v.read n)

end LiveEdit
