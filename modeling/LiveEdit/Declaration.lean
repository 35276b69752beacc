import LiveEdit.Syntax.Query

/-!
# Declarations

A declaration is a node that can own code.  `Declaration.Form` lists the forms, and the kind of a
node decides its form.
-/

namespace LiveEdit

/-- The forms of declarations. -/
inductive Declaration.Form where
  | method | constructor | destructor | operator | conversionOperator
  /-- One of `get`, `set`, `init`, `add` and `remove`. -/
  | accessor
  | property | indexer
  /-- The `=> expression` of a member. -/
  | arrowClause
  | localFunction
  /-- Lambdas and anonymous methods. -/
  | lambda
  deriving DecidableEq

namespace Declaration.Form

/-- The form of a node of a kind. -/
def ofKind? : Kind → Option Form
  | .methodDeclaration => some method
  | .constructorDeclaration => some constructor
  | .destructorDeclaration => some destructor
  | .operatorDeclaration => some operator
  | .conversionOperatorDeclaration => some conversionOperator
  | .propertyDeclaration => some property
  | .indexerDeclaration => some indexer
  | .arrowExpressionClause => some arrowClause
  | .localFunctionStatement => some localFunction
  | k => if k.isAccessor then some accessor else if k.isLambda then some lambda else none

/-- The name of a form. -/
def name : Form → String
  | method => "Method"
  | constructor => "Constructor"
  | destructor => "Destructor"
  | operator => "Operator"
  | conversionOperator => "ConversionOperator"
  | accessor => "Accessor"
  | property => "Property"
  | indexer => "Indexer"
  | arrowClause => "ArrowExpressionClause"
  | localFunction => "LocalFunction"
  | lambda => "Lambda"

/-- Local functions, lambdas and anonymous methods. -/
def isClosure : Form → Bool
  | localFunction | lambda => true
  | _ => false

end Declaration.Form

/-- A node whose kind is that of a declaration. -/
structure Declaration where
  node : Node
  form : Declaration.Form
  form_eq : Declaration.Form.ofKind? node.kind = some form
  deriving DecidableEq

/-- Whether nodes of a kind are declarations. -/
def Kind.isDeclaration (k : Kind) : Bool := (Declaration.Form.ofKind? k).isSome

namespace Node

/-- A node as a declaration, if its kind is one. -/
def declaration? (n : Node) : Option Declaration :=
  match h : Declaration.Form.ofKind? n.kind with
  | some form => some ⟨n, form, h⟩
  | none => none

/-- The declarations at and below a node, in source order. -/
def declarations (n : Node) : List Declaration := n.preorder.filterMap declaration?

/-- Marked `async`: a method or a closure with that modifier.  An arrow clause is judged by the
node around it. -/
def isAsync (n : Node) : Bool :=
  (if n.kind == .arrowExpressionClause then n.parent? else some n).any fun d =>
    (d.kind == .methodDeclaration || d.kind == .localFunctionStatement || d.kind.isLambda)
      && d.hasModifier .asyncKw

theorem declaration?_isSome (n : Node) : n.declaration?.isSome = n.kind.isDeclaration := by
  unfold declaration? Kind.isDeclaration
  split <;> simp_all

theorem node_of_declaration? {n : Node} {d : Declaration} (h : n.declaration? = some d) :
    d.node = n := by
  unfold declaration? at h
  split at h <;> simp at h
  rw [← h]

/-- The declaration of a declaration's node is itself. -/
theorem declaration?_node (d : Declaration) : d.node.declaration? = some d := by
  have h := d.form_eq
  unfold declaration?
  split
  · rename_i form hf
    obtain rfl : form = d.form := Option.some.inj (hf.symm.trans h)
    rfl
  · simp_all

end Node

end LiveEdit
