import LiveEdit.Body.Basic
import LiveEdit.Proofs.Building
import LiveEdit.Proofs.Children
import LiveEdit.Syntax.Layout

/-!
# Constructs

A `Construct` is one of the layouts of declarations with its arguments.  It says what each question
about the tree should answer, and `Construct.ReadsBack` that a declaration answers so.

* `Construct.sketch_eq`: every layout is modifiers, a signature and the code.
* `Construct.fits_sketch`: the tree of a construct is built if its modifiers are tokens and its code
  is.
-/

namespace LiveEdit.Sketch

/-! ## Constructs -/

/-- The code of a construct: the body of a member, or the body of a lambda, which is a block or an
expression. -/
inductive Code where
  | member (b : MemberBody)
  | closure (b : Sketch)

namespace Code

/-- The children that carry the code. -/
def parts : Code → List Sketch
  | member b => b.parts
  | closure b => [b]

/-- The form of the code, its path if the children that carry it begin at an index, and its
sketch. -/
def body? (start : Nat) : Code → Option (Body.Form × Path × Sketch)
  | member (.block b) => some (.block, [start], b)
  | member (.arrow e) => some (.expression, [start, 2], e)
  | member .absent => none
  | closure b => some (if b.kind = .block then .block else .expression, [start], b)

/-- A body was found, or none, as the code says: it has the form of the code, stands at its path and
is what its sketch builds. -/
def FoundIn (c : Code) (version : Nat) (n : Node) (start : Nat) (found : Option Body) : Prop :=
  match c.body? start with
  | none => found = none
  | some (form, p, s) => ∃ b m, found = some b ∧ b.form = form ∧ n.nodeAt? p = some b.node ∧
      s.build version = .ok m ∧ b.node.tree = m.tree

/-- The code can be built, and is a block or an expression as its place demands. -/
def Buildable : Code → Prop
  | member (.block b) => b.Fits ∧ b.kind = .block
  | member (.arrow e) => e.Fits ∧ e.kind.isExpression = true
  | member .absent => True
  | closure b => b.Fits ∧ (b.kind = .block ∨ b.kind.isExpression = true)

end Code

/-- The layouts of declarations with their arguments. -/
inductive Construct where
  | method (mods : List Kind) (text : String) (paramNames : List String) (body : MemberBody)
  | constructorOf (mods : List Kind) (typeName : String) (paramNames : List String)
    (body : MemberBody)
  | destructor (typeName : String) (body : MemberBody)
  | operator (body : MemberBody)
  | conversionOperator (body : MemberBody)
  | accessor (kind : Kind) (body : MemberBody)
  | localFunction (mods : List Kind) (text : String) (body : MemberBody)
  | lambda (mods : List Kind) (body : Sketch)
  | simpleLambda (mods : List Kind) (param : String) (body : Sketch)
  | anonymousMethod (mods : List Kind) (body : Sketch)

namespace Construct

/-- The layout applied to its arguments. -/
def sketch : Construct → Sketch
  | method mods text paramNames body => Sketch.method mods text paramNames body
  | constructorOf mods typeName paramNames body =>
    Sketch.constructorOf mods typeName paramNames body
  | destructor typeName body => Sketch.destructor typeName body
  | operator body => Sketch.operator body
  | conversionOperator body => Sketch.conversionOperator body
  | accessor kind body => Sketch.accessor kind body
  | localFunction mods text body => Sketch.localFunction mods text body
  | lambda mods body => Sketch.lambda mods body
  | simpleLambda mods param body => Sketch.simpleLambda mods param body
  | anonymousMethod mods body => Sketch.anonymousMethod mods body

/-- The form of declaration that the tree has. -/
def form : Construct → Declaration.Form
  | method .. => .method
  | constructorOf .. => .constructor
  | destructor .. => .destructor
  | operator .. => .operator
  | conversionOperator .. => .conversionOperator
  | accessor .. => .accessor
  | localFunction .. => .localFunction
  | lambda .. | simpleLambda .. | anonymousMethod .. => .lambda

/-- The modifiers, given or fixed. -/
def mods : Construct → List Kind
  | method mods .. | constructorOf mods .. | localFunction mods .. | lambda mods ..
  | simpleLambda mods .. | anonymousMethod mods .. => mods
  | operator .. | conversionOperator .. => [.publicKw, .staticKw]
  | destructor .. | accessor .. => []

/-- The name. -/
def name? : Construct → Option String
  | method _ text .. | constructorOf _ text .. | destructor text .. | localFunction _ text .. =>
    some text
  | _ => none

/-- The names in the list of parameters, if there is one. -/
def parameters? : Construct → Option (List String)
  | method _ _ paramNames _ | constructorOf _ _ paramNames _ => some paramNames
  | operator .. => some ["a", "b"]
  | conversionOperator .. => some ["c"]
  | destructor .. | localFunction .. | lambda .. => some []
  | accessor .. | simpleLambda .. | anonymousMethod .. => none

/-- The names of the parameters that stand without a list. -/
def bareParameters : Construct → List String
  | simpleLambda _ param _ => [param]
  | _ => []

/-- The code. -/
def code : Construct → Code
  | method _ _ _ body | constructorOf _ _ _ body | destructor _ body | operator body
  | conversionOperator body | accessor _ body | localFunction _ _ body => .member body
  | lambda _ body | simpleLambda _ _ body | anonymousMethod _ body => .closure body

/-- The kind of the node. -/
def kind : Construct → Kind
  | method .. => .methodDeclaration
  | constructorOf .. => .constructorDeclaration
  | destructor .. => .destructorDeclaration
  | operator .. => .operatorDeclaration
  | conversionOperator .. => .conversionOperatorDeclaration
  | accessor kind _ => kind
  | localFunction .. => .localFunctionStatement
  | lambda .. => .parenthesizedLambdaExpression
  | simpleLambda .. => .simpleLambdaExpression
  | anonymousMethod .. => .anonymousMethodExpression

/-- What stands between the modifiers and the code. -/
def signature : Construct → List Sketch
  | method _ text paramNames _ => [typeRef "Task", blank, ident text, params paramNames]
  | constructorOf _ typeName paramNames _ => [ident typeName, params paramNames]
  | destructor typeName _ => [punct .tilde, ident typeName, params []]
  | operator _ =>
    [typeRef "C", blank, punct .operatorKw, punct .plus, params ["a", "b"]]
  | conversionOperator _ =>
    [punct .implicitKw, blank, punct .operatorKw, blank, typeRef "int", params ["c"]]
  | accessor kind _ => [punct (accessorKeyword kind)]
  | localFunction _ text _ => [typeRef "Task", blank, ident text, params []]
  | lambda .. => [params [], punct .fatArrow]
  | simpleLambda _ param _ => [node .parameter [ident param], punct .fatArrow]
  | anonymousMethod .. => [punct .delegateKw]

/-- What stands before the code. -/
def head (c : Construct) : List Sketch := modifiers c.mods ++ c.signature

/-- Modifiers are tokens and no trivia, an accessor has the kind of one, and the code can be
built. -/
structure Buildable (c : Construct) : Prop where
  mods : ∀ k ∈ c.mods, k.isToken = true ∧ k.isTrivia = false
  accessor : ∀ k body, c = accessor k body → k.isAccessor = true
  code : c.code.Buildable

/-- The answers of a declaration that was laid out. -/
structure ReadsBack (c : Construct) (version : Nat) (d : Declaration) : Prop where
  form : d.form = c.form
  /-- There is a node for modifiers if there are any, and its keywords are the given ones. -/
  modifiers : (d.node.modifiers?.map fun m => m.keywords.map Token.kind) =
    if c.mods = [] then none else some c.mods
  name : d.node.identifier?.map Token.text = c.name?
  parameters : d.node.parameterList?.map Node.parameterNames = c.parameters?.map (·.map some)
  bare : d.node.parameterNames = c.bareParameters.map some
  body : ∃ found, d.body.value = .ok found ∧ c.code.FoundIn version d.node c.head.length found

/-- Every layout is modifiers, a signature and the code. -/
theorem sketch_eq (c : Construct) : c.sketch = node c.kind (c.head ++ c.code.parts) := by
  cases c <;> simp [sketch, Sketch.method, Sketch.constructorOf, Sketch.destructor,
    Sketch.operator, Sketch.conversionOperator, Sketch.accessor, Sketch.localFunction,
    Sketch.lambda, Sketch.simpleLambda, Sketch.anonymousMethod, kind, head, mods, signature, code,
    Code.parts, modifiers]

end Construct

/-! ## Parts that fit -/

@[simp] theorem fits_punct {k : Kind} : (punct k).Fits ↔ k.isToken = true := fits_token_iff

@[simp] theorem fits_ident (text : String) : (ident text).Fits := fits_token_iff.mpr rfl

@[simp] theorem fits_blank : blank.Fits := fits_token_iff.mpr rfl

@[simp] theorem fits_typeRef (text : String) : (typeRef text).Fits :=
  fits_node_iff.mpr ⟨rfl, by simp⟩

theorem mem_commaSeparated {ss : List Sketch} {s : Sketch} (hs : s ∈ commaSeparated ss) :
    s ∈ ss ∨ s = punct .comma := by
  rw [commaSeparated] at hs
  induction ss with
  | nil => cases hs
  | cons a ss ih =>
    cases ss with
    | nil => exact .inl hs
    | cons b ss =>
      rw [List.intersperse_cons_cons, List.mem_cons, List.mem_cons] at hs
      rcases hs with rfl | rfl | hs
      · exact .inl List.mem_cons_self
      · exact .inr rfl
      · exact (ih hs).imp_left (List.mem_cons_of_mem a)

@[simp] theorem fits_params (names : List String) : (params names).Fits := by
  refine fits_node_iff.mpr ⟨rfl, ?_⟩
  intro c hc
  simp only [List.mem_append, List.mem_singleton] at hc
  rcases hc with (rfl | hc) | rfl
  · exact fits_punct.mpr rfl
  · rcases mem_commaSeparated hc with hc | rfl
    · obtain ⟨n, -, rfl⟩ := List.mem_map.mp hc
      exact fits_node_iff.mpr ⟨rfl, by simp⟩
    · exact fits_punct.mpr rfl
  · exact fits_punct.mpr rfl

theorem fits_of_mem_modifiers {mods : List Kind} (hmods : ∀ k ∈ mods, k.isToken = true)
    {s : Sketch} (hs : s ∈ modifiers mods) : s.Fits := by
  rw [modifiers] at hs
  split at hs
  · cases hs
  · rw [List.mem_singleton.mp hs]
    refine fits_node_iff.mpr ⟨rfl, ?_⟩
    intro c hc
    obtain ⟨k, hk, hck⟩ := List.mem_flatMap.mp hc
    simp only [List.mem_cons, List.not_mem_nil, or_false] at hck
    rcases hck with rfl | rfl
    · exact fits_punct.mpr (hmods k hk)
    · exact fits_blank

theorem Construct.fits_of_mem_signature {c : Construct} {s : Sketch} (hs : s ∈ c.signature) :
    s.Fits := by
  have hkeyword : ∀ k, (accessorKeyword k).isToken = true := by
    intro k
    cases k <;> rfl
  revert s
  cases c <;> simp +decide [signature, hkeyword, fits_node_iff]

theorem Code.fits_of_mem_parts {c : Code} (hc : c.Buildable) {s : Sketch} (hs : s ∈ c.parts) :
    s.Fits := by
  revert s
  rcases c with (b | e | _) | b
  · simpa [parts, MemberBody.parts] using hc.1
  · simpa +decide [parts, MemberBody.parts, arrow, fits_node_iff] using hc.1
  · simp +decide [parts, MemberBody.parts]
  · simpa [parts] using hc.1

/-- The tree of a construct is built. -/
theorem Construct.fits_sketch {c : Construct} (hc : c.Buildable) : c.sketch.Fits := by
  rw [sketch_eq, fits_node_iff]
  constructor
  · cases c with
    | accessor k body =>
      have hnode : ∀ k : Kind, k.isAccessor = true → k.isToken = false := by
        intro k
        cases k <;> decide
      exact hnode k (hc.accessor k body rfl)
    | _ => rfl
  · intro s hs
    rw [head, List.mem_append, List.mem_append] at hs
    rcases hs with (hs | hs) | hs
    · exact fits_of_mem_modifiers (fun k hk => (hc.mods k hk).1) hs
    · exact fits_of_mem_signature hs
    · exact Code.fits_of_mem_parts hc.code hs

end LiveEdit.Sketch
