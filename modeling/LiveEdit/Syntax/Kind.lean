/-!
# Kinds of syntax

`Kind` tags every token and every node of a member-level tree.  Token kinds come before node
kinds, and the position of a kind in the list is its number.  `Kind.endMarker` closes the
numbering; it tags no node that can be read from a tree.

* `Kind.name`, `Kind.number`: the two spellings of a kind, with their readers `Kind.ofName?`
  and `Kind.ofNumber?`.
* `Kind.isToken`, `Kind.isKeyword`, `Kind.isStatement` and the others: the classes of kinds.
* `Kind.fixedText?`: the spelling of a keyword or of punctuation.
-/

namespace LiveEdit

/-- The tag of a token or of a node. -/
inductive Kind where
  -- trivia
  | whitespace | lineComment | blockComment
  -- identifiers and literals
  | identifier | intLiteral | stringLiteral
  -- keywords
  | abstractKw | addKw | asyncKw | awaitKw | breakKw | classKw | constKw | delegateKw | elseKw
  | eventKw | explicitKw | externKw | falseKw | forKw | forEachKw | getKw | ifKw | implicitKw
  | inKw | initKw | interfaceKw | internalKw | namespaceKw | newKw | nullKw | operatorKw
  | overrideKw | partialKw | privateKw | protectedKw | publicKw | readonlyKw | removeKw
  | returnKw | sealedKw | setKw | staticKw | structKw | thisKw | trueKw | unsafeKw | usingKw
  | varKw | virtualKw | voidKw | whileKw | yieldKw
  -- punctuation
  | lParen | rParen | lBrace | rBrace | lBracket | rBracket | semicolon | comma | dot | colon
  | question | fatArrow | tilde | bang | plus | minus | star | slash | eq | eqEq | less | greater
  -- text that is no token
  | error
  -- nodes: the unit, types, lists, members
  | compilationUnit | globalStatement | namespaceDeclaration | classDeclaration
  | structDeclaration | interfaceDeclaration | modifiers | typeRef | typeParameterList
  | typeParameter | parameterList | bracketedParameterList | parameter | argumentList | argument
  | methodDeclaration | constructorDeclaration | constructorInitializer | destructorDeclaration
  | operatorDeclaration | conversionOperatorDeclaration | propertyDeclaration
  | indexerDeclaration | eventDeclaration | fieldDeclaration | accessorList
  | getAccessorDeclaration | setAccessorDeclaration | initAccessorDeclaration
  | addAccessorDeclaration | removeAccessorDeclaration | arrowExpressionClause
  | equalsValueClause | variableDeclaration | variableDeclarator
  -- nodes: statements
  | block | emptyStatement | expressionStatement | localDeclarationStatement
  | localFunctionStatement | ifStatement | elseClause | whileStatement | forStatement
  | forEachStatement | usingStatement | returnStatement | yieldReturnStatement
  | yieldBreakStatement | breakStatement
  -- nodes: expressions
  | identifierName | literalExpression | thisExpression | parenthesizedExpression
  | invocationExpression | memberAccessExpression | objectCreationExpression
  | prefixUnaryExpression | binaryExpression | assignmentExpression | awaitExpression
  | simpleLambdaExpression | parenthesizedLambdaExpression | anonymousMethodExpression
  | endMarker
  deriving DecidableEq, Inhabited

namespace Kind

/-- Every kind, in numeric order. -/
def all : List Kind := [
  .whitespace, .lineComment, .blockComment, .identifier, .intLiteral, .stringLiteral,
  .abstractKw, .addKw, .asyncKw, .awaitKw, .breakKw, .classKw, .constKw, .delegateKw, .elseKw,
  .eventKw, .explicitKw, .externKw, .falseKw, .forKw, .forEachKw, .getKw, .ifKw, .implicitKw,
  .inKw, .initKw, .interfaceKw, .internalKw, .namespaceKw, .newKw, .nullKw, .operatorKw,
  .overrideKw, .partialKw, .privateKw, .protectedKw, .publicKw, .readonlyKw, .removeKw,
  .returnKw, .sealedKw, .setKw, .staticKw, .structKw, .thisKw, .trueKw, .unsafeKw, .usingKw,
  .varKw, .virtualKw, .voidKw, .whileKw, .yieldKw, .lParen, .rParen, .lBrace, .rBrace, .lBracket,
  .rBracket, .semicolon, .comma, .dot, .colon, .question, .fatArrow, .tilde, .bang, .plus,
  .minus, .star, .slash, .eq, .eqEq, .less, .greater, .error, .compilationUnit, .globalStatement,
  .namespaceDeclaration, .classDeclaration, .structDeclaration, .interfaceDeclaration,
  .modifiers, .typeRef, .typeParameterList, .typeParameter, .parameterList,
  .bracketedParameterList, .parameter, .argumentList, .argument, .methodDeclaration,
  .constructorDeclaration, .constructorInitializer, .destructorDeclaration, .operatorDeclaration,
  .conversionOperatorDeclaration, .propertyDeclaration, .indexerDeclaration, .eventDeclaration,
  .fieldDeclaration, .accessorList, .getAccessorDeclaration, .setAccessorDeclaration,
  .initAccessorDeclaration, .addAccessorDeclaration, .removeAccessorDeclaration,
  .arrowExpressionClause, .equalsValueClause, .variableDeclaration, .variableDeclarator, .block,
  .emptyStatement, .expressionStatement, .localDeclarationStatement, .localFunctionStatement,
  .ifStatement, .elseClause, .whileStatement, .forStatement, .forEachStatement, .usingStatement,
  .returnStatement, .yieldReturnStatement, .yieldBreakStatement, .breakStatement,
  .identifierName, .literalExpression, .thisExpression, .parenthesizedExpression,
  .invocationExpression, .memberAccessExpression, .objectCreationExpression,
  .prefixUnaryExpression, .binaryExpression, .assignmentExpression, .awaitExpression,
  .simpleLambdaExpression, .parenthesizedLambdaExpression, .anonymousMethodExpression, .endMarker]

/-- The position of a kind among all kinds. -/
def number (k : Kind) : Nat := k.ctorIdx

/-- The kind at a position. -/
def ofNumber? (n : Nat) : Option Kind := all[n]?

theorem ofNumber?_number (k : Kind) : ofNumber? k.number = some k := by
  cases k <;> rfl

/-- The kind that a tree holds for a number: numbers outside the list stand for errors, and so
does the end marker. -/
def ofStoredNumber (n : Nat) : Kind :=
  if n < endMarker.number then (ofNumber? n).getD .error else .error

/-- The kind that a node of kind `k` has once it is part of a tree. -/
def stored : Kind → Kind
  | .endMarker => .error
  | k => k

theorem ofStoredNumber_number (k : Kind) : ofStoredNumber k.number = k.stored := by
  cases k <;> rfl

theorem number_lt_of_ne {k : Kind} (hk : k ≠ .endMarker) : k.number < endMarker.number := by
  revert hk
  cases k <;> decide

/-- Every kind but the end marker comes back from the number under which a tree holds it. -/
theorem stored_of_ne {k : Kind} (hk : k ≠ .endMarker) : k.stored = k := by
  rw [← ofStoredNumber_number, ofStoredNumber, if_pos (number_lt_of_ne hk), ofNumber?_number,
    Option.getD_some]

/-- The name of a kind. -/
def name : Kind → String
  | .whitespace => "Whitespace"
  | .lineComment => "LineComment"
  | .blockComment => "BlockComment"
  | .identifier => "Identifier"
  | .intLiteral => "IntLiteral"
  | .stringLiteral => "StringLiteral"
  | .abstractKw => "AbstractKw"
  | .addKw => "AddKw"
  | .asyncKw => "AsyncKw"
  | .awaitKw => "AwaitKw"
  | .breakKw => "BreakKw"
  | .classKw => "ClassKw"
  | .constKw => "ConstKw"
  | .delegateKw => "DelegateKw"
  | .elseKw => "ElseKw"
  | .eventKw => "EventKw"
  | .explicitKw => "ExplicitKw"
  | .externKw => "ExternKw"
  | .falseKw => "FalseKw"
  | .forKw => "ForKw"
  | .forEachKw => "ForEachKw"
  | .getKw => "GetKw"
  | .ifKw => "IfKw"
  | .implicitKw => "ImplicitKw"
  | .inKw => "InKw"
  | .initKw => "InitKw"
  | .interfaceKw => "InterfaceKw"
  | .internalKw => "InternalKw"
  | .namespaceKw => "NamespaceKw"
  | .newKw => "NewKw"
  | .nullKw => "NullKw"
  | .operatorKw => "OperatorKw"
  | .overrideKw => "OverrideKw"
  | .partialKw => "PartialKw"
  | .privateKw => "PrivateKw"
  | .protectedKw => "ProtectedKw"
  | .publicKw => "PublicKw"
  | .readonlyKw => "ReadonlyKw"
  | .removeKw => "RemoveKw"
  | .returnKw => "ReturnKw"
  | .sealedKw => "SealedKw"
  | .setKw => "SetKw"
  | .staticKw => "StaticKw"
  | .structKw => "StructKw"
  | .thisKw => "ThisKw"
  | .trueKw => "TrueKw"
  | .unsafeKw => "UnsafeKw"
  | .usingKw => "UsingKw"
  | .varKw => "VarKw"
  | .virtualKw => "VirtualKw"
  | .voidKw => "VoidKw"
  | .whileKw => "WhileKw"
  | .yieldKw => "YieldKw"
  | .lParen => "LParen"
  | .rParen => "RParen"
  | .lBrace => "LBrace"
  | .rBrace => "RBrace"
  | .lBracket => "LBracket"
  | .rBracket => "RBracket"
  | .semicolon => "Semicolon"
  | .comma => "Comma"
  | .dot => "Dot"
  | .colon => "Colon"
  | .question => "Question"
  | .fatArrow => "FatArrow"
  | .tilde => "Tilde"
  | .bang => "Bang"
  | .plus => "Plus"
  | .minus => "Minus"
  | .star => "Star"
  | .slash => "Slash"
  | .eq => "Eq"
  | .eqEq => "EqEq"
  | .less => "Less"
  | .greater => "Greater"
  | .error => "Error"
  | .compilationUnit => "CompilationUnit"
  | .globalStatement => "GlobalStatement"
  | .namespaceDeclaration => "NamespaceDeclaration"
  | .classDeclaration => "ClassDeclaration"
  | .structDeclaration => "StructDeclaration"
  | .interfaceDeclaration => "InterfaceDeclaration"
  | .modifiers => "Modifiers"
  | .typeRef => "TypeRef"
  | .typeParameterList => "TypeParameterList"
  | .typeParameter => "TypeParameter"
  | .parameterList => "ParameterList"
  | .bracketedParameterList => "BracketedParameterList"
  | .parameter => "Parameter"
  | .argumentList => "ArgumentList"
  | .argument => "Argument"
  | .methodDeclaration => "MethodDeclaration"
  | .constructorDeclaration => "ConstructorDeclaration"
  | .constructorInitializer => "ConstructorInitializer"
  | .destructorDeclaration => "DestructorDeclaration"
  | .operatorDeclaration => "OperatorDeclaration"
  | .conversionOperatorDeclaration => "ConversionOperatorDeclaration"
  | .propertyDeclaration => "PropertyDeclaration"
  | .indexerDeclaration => "IndexerDeclaration"
  | .eventDeclaration => "EventDeclaration"
  | .fieldDeclaration => "FieldDeclaration"
  | .accessorList => "AccessorList"
  | .getAccessorDeclaration => "GetAccessorDeclaration"
  | .setAccessorDeclaration => "SetAccessorDeclaration"
  | .initAccessorDeclaration => "InitAccessorDeclaration"
  | .addAccessorDeclaration => "AddAccessorDeclaration"
  | .removeAccessorDeclaration => "RemoveAccessorDeclaration"
  | .arrowExpressionClause => "ArrowExpressionClause"
  | .equalsValueClause => "EqualsValueClause"
  | .variableDeclaration => "VariableDeclaration"
  | .variableDeclarator => "VariableDeclarator"
  | .block => "Block"
  | .emptyStatement => "EmptyStatement"
  | .expressionStatement => "ExpressionStatement"
  | .localDeclarationStatement => "LocalDeclarationStatement"
  | .localFunctionStatement => "LocalFunctionStatement"
  | .ifStatement => "IfStatement"
  | .elseClause => "ElseClause"
  | .whileStatement => "WhileStatement"
  | .forStatement => "ForStatement"
  | .forEachStatement => "ForEachStatement"
  | .usingStatement => "UsingStatement"
  | .returnStatement => "ReturnStatement"
  | .yieldReturnStatement => "YieldReturnStatement"
  | .yieldBreakStatement => "YieldBreakStatement"
  | .breakStatement => "BreakStatement"
  | .identifierName => "IdentifierName"
  | .literalExpression => "LiteralExpression"
  | .thisExpression => "ThisExpression"
  | .parenthesizedExpression => "ParenthesizedExpression"
  | .invocationExpression => "InvocationExpression"
  | .memberAccessExpression => "MemberAccessExpression"
  | .objectCreationExpression => "ObjectCreationExpression"
  | .prefixUnaryExpression => "PrefixUnaryExpression"
  | .binaryExpression => "BinaryExpression"
  | .assignmentExpression => "AssignmentExpression"
  | .awaitExpression => "AwaitExpression"
  | .simpleLambdaExpression => "SimpleLambdaExpression"
  | .parenthesizedLambdaExpression => "ParenthesizedLambdaExpression"
  | .anonymousMethodExpression => "AnonymousMethodExpression"
  | .endMarker => "__Last"

/-- The kind of a name. -/
def ofName? (s : String) : Option Kind := all.find? (·.name == s)

/-- White space and comments. -/
def isTrivia : Kind → Bool
  | .whitespace | .lineComment | .blockComment => true
  | _ => false

/-- Tokens are numbered before the first node kind. -/
def isToken (k : Kind) : Bool := k.number < compilationUnit.number

/-- Keywords are numbered without a gap. -/
def isKeyword (k : Kind) : Bool :=
  abstractKw.number ≤ k.number && k.number ≤ yieldKw.number

/-- Keywords that can stand in a list of modifiers. -/
def isModifier : Kind → Bool
  | .abstractKw | .asyncKw | .constKw | .externKw | .internalKw | .newKw | .overrideKw
  | .partialKw | .privateKw | .protectedKw | .publicKw | .readonlyKw | .sealedKw | .staticKw
  | .unsafeKw | .virtualKw => true
  | _ => false

/-- The `get`, `set`, `init`, `add` and `remove` accessors. -/
def isAccessor : Kind → Bool
  | .getAccessorDeclaration | .setAccessorDeclaration | .initAccessorDeclaration
  | .addAccessorDeclaration | .removeAccessorDeclaration => true
  | _ => false

/-- Statements. -/
def isStatement : Kind → Bool
  | .block | .emptyStatement | .expressionStatement | .localDeclarationStatement
  | .localFunctionStatement | .ifStatement | .whileStatement | .forStatement
  | .forEachStatement | .usingStatement | .returnStatement | .yieldReturnStatement
  | .yieldBreakStatement | .breakStatement => true
  | _ => false

/-- Expressions. -/
def isExpression : Kind → Bool
  | .identifierName | .literalExpression | .thisExpression | .parenthesizedExpression
  | .invocationExpression | .memberAccessExpression | .objectCreationExpression
  | .prefixUnaryExpression | .binaryExpression | .assignmentExpression | .awaitExpression
  | .simpleLambdaExpression | .parenthesizedLambdaExpression | .anonymousMethodExpression => true
  | _ => false

/-- Lambdas and anonymous methods. -/
def isLambda : Kind → Bool
  | .simpleLambdaExpression | .parenthesizedLambdaExpression | .anonymousMethodExpression => true
  | _ => false

/-- The spelling of a token whose text never varies. -/
def fixedText? : Kind → Option String
  | .abstractKw => some "abstract"
  | .addKw => some "add"
  | .asyncKw => some "async"
  | .awaitKw => some "await"
  | .breakKw => some "break"
  | .classKw => some "class"
  | .constKw => some "const"
  | .delegateKw => some "delegate"
  | .elseKw => some "else"
  | .eventKw => some "event"
  | .explicitKw => some "explicit"
  | .externKw => some "extern"
  | .falseKw => some "false"
  | .forKw => some "for"
  | .forEachKw => some "foreach"
  | .getKw => some "get"
  | .ifKw => some "if"
  | .implicitKw => some "implicit"
  | .inKw => some "in"
  | .initKw => some "init"
  | .interfaceKw => some "interface"
  | .internalKw => some "internal"
  | .namespaceKw => some "namespace"
  | .newKw => some "new"
  | .nullKw => some "null"
  | .operatorKw => some "operator"
  | .overrideKw => some "override"
  | .partialKw => some "partial"
  | .privateKw => some "private"
  | .protectedKw => some "protected"
  | .publicKw => some "public"
  | .readonlyKw => some "readonly"
  | .removeKw => some "remove"
  | .returnKw => some "return"
  | .sealedKw => some "sealed"
  | .setKw => some "set"
  | .staticKw => some "static"
  | .structKw => some "struct"
  | .thisKw => some "this"
  | .trueKw => some "true"
  | .unsafeKw => some "unsafe"
  | .usingKw => some "using"
  | .varKw => some "var"
  | .virtualKw => some "virtual"
  | .voidKw => some "void"
  | .whileKw => some "while"
  | .yieldKw => some "yield"
  | .lParen => some "("
  | .rParen => some ")"
  | .lBrace => some "\x7b"
  | .rBrace => some "\x7d"
  | .lBracket => some "["
  | .rBracket => some "]"
  | .semicolon => some ";"
  | .comma => some ","
  | .dot => some "."
  | .colon => some ":"
  | .question => some "?"
  | .fatArrow => some "=>"
  | .tilde => some "~"
  | .bang => some "!"
  | .plus => some "+"
  | .minus => some "-"
  | .star => some "*"
  | .slash => some "/"
  | .eq => some "="
  | .eqEq => some "=="
  | .less => some "<"
  | .greater => some ">"
  | _ => none

end Kind

end LiveEdit
