import LiveEdit.Syntax.Sketch

/-!
# Layouts of the constructs

For each construct of the language there is one layout: the tokens and nodes, white space
included, that a tree of that construct has.  The functions of this module sketch the layouts.
`MemberBody` and `PropertyBody` are the forms in which a member or a property carries its code.
-/

namespace LiveEdit.Sketch

/-- A token with the spelling of its kind, or with no text if the kind has none. -/
def punct (k : Kind) : Sketch := token k (k.fixedText?.getD "")

/-- An identifier. -/
def ident (text : String) : Sketch := token .identifier text

/-- One blank. -/
def blank : Sketch := token .whitespace " "

/-- Sketches with commas between them. -/
def commaSeparated (ss : List Sketch) : List Sketch := ss.intersperse (punct .comma)

/-- A keyword for each kind, followed by a blank. -/
def keywords (ks : List Kind) : List Sketch := ks.flatMap fun k => [punct k, blank]

/-- The modifiers of a declaration; there is no node if there is no modifier. -/
def modifiers (ks : List Kind) : List Sketch :=
  if ks.isEmpty then [] else [node .modifiers (keywords ks)]

/-- The type that a name refers to. -/
def typeRef (text : String) : Sketch := node .typeRef [ident text]

/-- The type `var`. -/
def varType : Sketch := node .typeRef [punct .varKw]

/-- Parameters between two brackets, each of type `int`. -/
def paramsBetween (kind opening closing : Kind) (names : List String) : Sketch :=
  node kind <| [punct opening]
    ++ commaSeparated (names.map fun n => node .parameter [typeRef "int", blank, ident n])
    ++ [punct closing]

/-- Parameters: `(int a,int b)`. -/
def params : List String → Sketch := paramsBetween .parameterList .lParen .rParen

/-- Parameters of an indexer: `[int a,int b]`. -/
def bracketedParams : List String → Sketch :=
  paramsBetween .bracketedParameterList .lBracket .rBracket

/-- Type parameters: `<A,B>`. -/
def typeParams (names : List String) : Sketch :=
  node .typeParameterList <| [punct .less]
    ++ commaSeparated (names.map fun n => node .typeParameter [ident n])
    ++ [punct .greater]

/-- An arrow clause: `=> expression`. -/
def arrow (e : Sketch) : Sketch := node .arrowExpressionClause [punct .fatArrow, blank, e]

/-- An initial value: `= expression`. -/
def equalsValue (e : Sketch) : Sketch := node .equalsValueClause [punct .eq, blank, e]

/-- How a member carries its code: in a block, after an arrow, or not at all. -/
inductive MemberBody where
  | block (b : Sketch)
  | arrow (e : Sketch)
  | absent

/-- The children that carry a member's code. -/
def MemberBody.parts : MemberBody → List Sketch
  | .block b => [b]
  | .arrow e => [Sketch.arrow e, punct .semicolon]
  | .absent => [punct .semicolon]

/-- How a property carries its code: in accessors, or after an arrow. -/
inductive PropertyBody where
  | accessors (as : List Sketch)
  | arrow (e : Sketch)

/-- A list of accessors. -/
def accessorList (as : List Sketch) : Sketch :=
  node .accessorList ([punct .lBrace] ++ as ++ [punct .rBrace])

/-- The children that carry a property's code. -/
def PropertyBody.parts : PropertyBody → List Sketch
  | .accessors as => [accessorList as]
  | .arrow e => [Sketch.arrow e, punct .semicolon]

/-! ### Expressions -/

/-- A name used as an expression: `text`. -/
def name (text : String) : Sketch := node .identifierName [ident text]

/-- A whole number. -/
def int (i : Int) : Sketch := node .literalExpression [token .intLiteral (toString i)]

/-- An awaited expression: `await e`. -/
def await (e : Sketch) : Sketch := node .awaitExpression [punct .awaitKw, blank, e]

/-- A call: `callee(a,b)`. -/
def call (callee : String) (args : List Sketch) : Sketch :=
  node .invocationExpression [name callee, node .argumentList <|
    [punct .lParen] ++ commaSeparated (args.map fun a => node .argument [a]) ++ [punct .rParen]]

/-- Two expressions with an operator between them. -/
def binary (left : Sketch) (operator : Kind) (right : Sketch) : Sketch :=
  node .binaryExpression [left, punct operator, right]

/-- A lambda without parameters: `() => body`. -/
def lambda (mods : List Kind) (body : Sketch) : Sketch :=
  node .parenthesizedLambdaExpression (modifiers mods ++ [params [], punct .fatArrow, body])

/-- A lambda with one parameter: `param => body`. -/
def simpleLambda (mods : List Kind) (param : String) (body : Sketch) : Sketch :=
  node .simpleLambdaExpression
    (modifiers mods ++ [node .parameter [ident param], punct .fatArrow, body])

/-- An anonymous method: `delegate { ... }`. -/
def anonymousMethod (mods : List Kind) (body : Sketch) : Sketch :=
  node .anonymousMethodExpression (modifiers mods ++ [punct .delegateKw, body])

/-! ### Statements -/

/-- A block: `{ ... }`. -/
def block (statements : List Sketch) : Sketch :=
  node .block ([punct .lBrace] ++ statements ++ [punct .rBrace])

/-- An expression as a statement: `e;`. -/
def expressionStatement (e : Sketch) : Sketch :=
  node .expressionStatement [e, punct .semicolon]

/-- A branch: `if(condition) then`. -/
def ifStatement (condition thenPart : Sketch) : Sketch :=
  node .ifStatement [punct .ifKw, punct .lParen, condition, punct .rParen, thenPart]

/-- A loop: `while(condition) body`. -/
def whileStatement (condition body : Sketch) : Sketch :=
  node .whileStatement [punct .whileKw, punct .lParen, condition, punct .rParen, body]

/-- The end of a call: `return;` or `return e;`. -/
def returnStatement (e : Option Sketch) : Sketch :=
  node .returnStatement <|
    [punct .returnKw] ++ (e.toList.flatMap fun e => [blank, e]) ++ [punct .semicolon]

/-- A yielded value: `yield return e;`. -/
def yieldReturn (e : Sketch) : Sketch :=
  node .yieldReturnStatement
    [punct .yieldKw, blank, punct .returnKw, blank, e, punct .semicolon]

/-- The end of a generator: `yield break;`. -/
def yieldBreak : Sketch :=
  node .yieldBreakStatement [punct .yieldKw, blank, punct .breakKw, punct .semicolon]

/-- The keyword `await` before a statement. -/
def awaitMark (isAwait : Bool) : List Sketch := if isAwait then keywords [.awaitKw] else []

/-- A loop over a collection: `foreach(var item in collection) body`. -/
def forEach (isAwait : Bool) (item : String) (collection body : Sketch) : Sketch :=
  node .forEachStatement <| awaitMark isAwait ++
    [punct .forEachKw, punct .lParen, varType, blank, ident item, blank, punct .inKw, blank,
      collection, punct .rParen, body]

/-- The use of a resource: `using(resource) body`. -/
def usingStatement (isAwait : Bool) (resource body : Sketch) : Sketch :=
  node .usingStatement <| awaitMark isAwait ++
    [punct .usingKw, punct .lParen, resource, punct .rParen, body]

/-- A declared variable: `text` or `text= value`. -/
def declarator (text : String) (value : Option Sketch) : Sketch :=
  node .variableDeclarator ([ident text] ++ value.toList.map equalsValue)

/-- Declared variables: `var a= x,b= y`. -/
def varDeclaration (declarators : List (String × Sketch)) : Sketch :=
  node .variableDeclaration <| [varType, blank]
    ++ commaSeparated (declarators.map fun d => declarator d.1 (some d.2))

/-- A local declaration with keywords such as `await using` before it. -/
def localDeclaration (leading : List Kind) (declarators : List (String × Sketch)) : Sketch :=
  node .localDeclarationStatement
    (keywords leading ++ [varDeclaration declarators, punct .semicolon])

/-- A local function without parameters. -/
def localFunction (mods : List Kind) (text : String) (body : MemberBody) : Sketch :=
  node .localFunctionStatement
    (modifiers mods ++ [typeRef "Task", blank, ident text, params []] ++ body.parts)

/-- A statement of a compilation unit. -/
def globalStatement (statement : Sketch) : Sketch := node .globalStatement [statement]

/-! ### Declarations -/

/-- A method. -/
def method (mods : List Kind) (text : String) (paramNames : List String) (body : MemberBody) :
    Sketch :=
  node .methodDeclaration
    (modifiers mods ++ [typeRef "Task", blank, ident text, params paramNames] ++ body.parts)

/-- A constructor. -/
def constructorOf (mods : List Kind) (typeName : String) (paramNames : List String)
    (body : MemberBody) : Sketch :=
  node .constructorDeclaration
    (modifiers mods ++ [ident typeName, params paramNames] ++ body.parts)

/-- A destructor. -/
def destructor (typeName : String) (body : MemberBody) : Sketch :=
  node .destructorDeclaration ([punct .tilde, ident typeName, params []] ++ body.parts)

/-- An operator: `public static C operator+(int a,int b)`. -/
def operator (body : MemberBody) : Sketch :=
  node .operatorDeclaration (modifiers [.publicKw, .staticKw]
    ++ [typeRef "C", blank, punct .operatorKw, punct .plus, params ["a", "b"]] ++ body.parts)

/-- A conversion: `public static implicit operator int(int c)`. -/
def conversionOperator (body : MemberBody) : Sketch :=
  node .conversionOperatorDeclaration (modifiers [.publicKw, .staticKw]
    ++ [punct .implicitKw, blank, punct .operatorKw, blank, typeRef "int", params ["c"]]
    ++ body.parts)

/-- The keyword of an accessor. -/
def accessorKeyword : Kind → Kind
  | .setAccessorDeclaration => .setKw
  | .initAccessorDeclaration => .initKw
  | .addAccessorDeclaration => .addKw
  | .removeAccessorDeclaration => .removeKw
  | _ => .getKw

/-- An accessor. -/
def accessor (kind : Kind) (body : MemberBody) : Sketch :=
  node kind ([punct (accessorKeyword kind)] ++ body.parts)

/-- A property, with its initial value if it has one. -/
def property (mods : List Kind) (text : String) (body : PropertyBody) (initial : Option Sketch) :
    Sketch :=
  node .propertyDeclaration <| modifiers mods ++ [typeRef "int", blank, ident text] ++ body.parts
    ++ initial.toList.flatMap fun e => [equalsValue e, punct .semicolon]

/-- An indexer: `int this[int i]`. -/
def indexer (mods : List Kind) (body : PropertyBody) : Sketch :=
  node .indexerDeclaration (modifiers mods
    ++ [typeRef "int", blank, punct .thisKw, bracketedParams ["i"]] ++ body.parts)

/-- An event with its accessors. -/
def event (text : String) (accessors : List Sketch) : Sketch :=
  node .eventDeclaration [punct .eventKw, blank, typeRef "Action", blank, ident text,
    accessorList accessors]

/-- A field. -/
def field (mods : List Kind) (text : String) (value : Option Sketch) : Sketch :=
  node .fieldDeclaration (modifiers mods
    ++ [node .variableDeclaration [typeRef "int", blank, declarator text value],
      punct .semicolon])

/-- A type with its members. -/
def typeDeclaration (kind keyword : Kind) (text : String) (members : List Sketch) : Sketch :=
  node kind ([punct keyword, blank, ident text, punct .lBrace] ++ members ++ [punct .rBrace])

/-- A class. -/
def classOf : String → List Sketch → Sketch := typeDeclaration .classDeclaration .classKw

/-- An interface. -/
def interfaceOf : String → List Sketch → Sketch :=
  typeDeclaration .interfaceDeclaration .interfaceKw

/-- A compilation unit. -/
def unit (members : List Sketch) : Sketch := node .compilationUnit members

end LiveEdit.Sketch
