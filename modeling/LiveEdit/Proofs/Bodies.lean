import LiveEdit.Body.Basic
import LiveEdit.Proofs.Extent

/-!
# Where bodies stand

`BodyPlace` lists the places in which a declaration can own a body.  Everything below follows from
it.

* `body_eq`: the body that a declaration owns always has the shape of a body, so looking it up
  never fails.
* `Declaration.Holds` says that a node lies in the body of a declaration.  A declaration lies
  strictly above what it holds, and nothing between a declaration and its body holds anything.
* `owner_eq_some_iff`: the owner of a node that covers text is the innermost declaration that
  holds it.
-/

namespace LiveEdit

namespace Declaration

/-! ## The places of bodies -/

/-- The place of a body below its declaration. -/
inductive BodyPlace (d : Declaration) : Body → Prop
  /-- A block is a child of a member or a closure. -/
  | block {c : Node} (hform : d.form ≠ .property ∧ d.form ≠ .indexer ∧ d.form ≠ .arrowClause)
      (hchild : c ∈ d.node.childNodes) (hkind : c.kind = .block) : BodyPlace d ⟨.block, c⟩
  /-- The expression after the arrow of a member stands in the member's arrow clause. -/
  | arrow {a e : Node}
      (hform : d.form ≠ .property ∧ d.form ≠ .indexer ∧ d.form ≠ .arrowClause ∧
        d.form ≠ .lambda)
      (hclause : a ∈ d.node.childNodes) (hkind : a.kind = .arrowExpressionClause)
      (hchild : e ∈ a.childNodes) (hexpression : e.kind.isExpression = true) :
      BodyPlace d ⟨.expression, e⟩
  /-- The expression of a lambda is its child. -/
  | lambda {e : Node} (hform : d.form = .lambda) (hchild : e ∈ d.node.childNodes)
      (hexpression : e.kind.isExpression = true) : BodyPlace d ⟨.expression, e⟩
  /-- The initial value of a property stands in its `= value` clause. -/
  | initializer {v e : Node} (hform : d.form = .property) (hclause : v ∈ d.node.childNodes)
      (hkind : v.kind = .equalsValueClause) (hchild : e ∈ v.childNodes)
      (hexpression : e.kind.isExpression = true) : BodyPlace d ⟨.expression, e⟩
  /-- The expression of an arrow clause of a property or an indexer is the clause's child. -/
  | clause {p e : Node} (hform : d.form = .arrowClause) (hparent : d.node.parent? = some p)
      (howner : p.kind = .propertyDeclaration ∨ p.kind = .indexerDeclaration)
      (hchild : e ∈ d.node.childNodes) (hexpression : e.kind.isExpression = true) :
      BodyPlace d ⟨.expression, e⟩

end Declaration

namespace Node

theorem mem_childNodes_of_childOf? {n c : Node} {k : Kind} (hc : n.childOf? k = some c) :
    c ∈ n.childNodes :=
  mem_childNodes_of_child? hc

theorem kind_of_childOf? {n c : Node} {k : Kind} (hc : n.childOf? k = some c) : c.kind = k :=
  beq_iff_eq.mp (accepts_of_child? hc)

/-- A body of a member is the block of the node, or the expression in its arrow clause. -/
theorem blockOrArrow?_cases {n : Node} {b : Body} (hb : n.blockOrArrow? = some b) :
    (∃ c ∈ n.childNodes, c.kind = .block ∧ b = ⟨.block, c⟩) ∨
      ∃ a ∈ n.childNodes, a.kind = .arrowExpressionClause ∧
        ∃ e ∈ a.childNodes, e.kind.isExpression = true ∧ b = ⟨.expression, e⟩ := by
  rw [blockOrArrow?, Option.or_eq_some_iff] at hb
  rcases hb with hblock | ⟨-, harrow⟩
  · obtain ⟨c, hc, rfl⟩ := Option.map_eq_some_iff.mp hblock
    exact .inl ⟨c, mem_childNodes_of_childOf? hc, kind_of_childOf? hc, rfl⟩
  · obtain ⟨e, he, rfl⟩ := Option.map_eq_some_iff.mp harrow
    obtain ⟨a, ha, hae⟩ := Option.bind_eq_some_iff.mp he
    exact .inr ⟨a, mem_childNodes_of_childOf? ha, kind_of_childOf? ha, e,
      mem_childNodes_of_child? hae, accepts_of_child? hae, rfl⟩

/-- A body of a lambda is the block of the node, or its expression. -/
theorem blockOrExpression?_cases {n : Node} {b : Body} (hb : n.blockOrExpression? = some b) :
    (∃ c ∈ n.childNodes, c.kind = .block ∧ b = ⟨.block, c⟩) ∨
      ∃ e ∈ n.childNodes, e.kind.isExpression = true ∧ b = ⟨.expression, e⟩ := by
  rw [blockOrExpression?, Option.or_eq_some_iff] at hb
  rcases hb with hblock | ⟨-, hexpression⟩
  · obtain ⟨c, hc, rfl⟩ := Option.map_eq_some_iff.mp hblock
    exact .inl ⟨c, mem_childNodes_of_childOf? hc, kind_of_childOf? hc, rfl⟩
  · obtain ⟨e, he, rfl⟩ := Option.map_eq_some_iff.mp hexpression
    exact .inr ⟨e, mem_childNodes_of_child? he, accepts_of_child? he, rfl⟩

end Node

namespace Declaration

/-- A body stands in one of its places. -/
theorem bodyPlace_of_ownBody? {d : Declaration} {b : Body} (hb : d.ownBody? = some b) :
    BodyPlace d b := by
  obtain ⟨n, form, hform⟩ := d
  cases form with
  | method | constructor | destructor | operator | conversionOperator | accessor
  | localFunction =>
    rcases Node.blockOrArrow?_cases hb with ⟨c, hc, hkind, rfl⟩ | ⟨a, ha, hkind, e, he, hexp, rfl⟩
    · exact .block (by simp) hc hkind
    · exact .arrow (by simp) ha hkind he hexp
  | lambda =>
    rcases Node.blockOrExpression?_cases hb with ⟨c, hc, hkind, rfl⟩ | ⟨e, he, hexp, rfl⟩
    · exact .block (by simp) hc hkind
    · exact .lambda rfl he hexp
  | property =>
    obtain ⟨e, he, rfl⟩ := Option.map_eq_some_iff.mp hb
    obtain ⟨v, hv, hve⟩ := Option.bind_eq_some_iff.mp he
    exact .initializer rfl (Node.mem_childNodes_of_childOf? hv) (Node.kind_of_childOf? hv)
      (Node.mem_childNodes_of_child? hve) (Node.accepts_of_child? hve)
  | indexer => cases hb
  | arrowClause =>
    simp only [ownBody?] at hb
    split at hb
    · rename_i howned
      obtain ⟨p, hp, howner⟩ := (Option.any_eq_true _ _).mp howned
      obtain ⟨e, he, rfl⟩ := Option.map_eq_some_iff.mp hb
      exact .clause rfl hp (by simpa using howner) (Node.mem_childNodes_of_child? he)
        (Node.accepts_of_child? he)
    · cases hb

/-- What a declaration owns is a block or an expression. -/
theorem BodyPlace.kind {d : Declaration} {b : Body} (hplace : BodyPlace d b) :
    b.node.kind = .block ∨ b.node.kind.isExpression = true := by
  cases hplace with
  | block _ _ hkind => exact .inl hkind
  | arrow _ _ _ _ hexpression => exact .inr hexpression
  | lambda _ _ hexpression => exact .inr hexpression
  | initializer _ _ _ _ hexpression => exact .inr hexpression
  | clause _ _ _ _ hexpression => exact .inr hexpression

/-! ## Kinds of declarations -/

theorem Form.isClosure_of_ofKind? {k : Kind} {f : Form} (hform : Form.ofKind? k = some f) :
    f.isClosure = (k.isLambda || k == .localFunctionStatement) := by
  cases k <;> cases hform <;> rfl

theorem Form.isLambda_of_ofKind? {k : Kind} (hform : Form.ofKind? k = some .lambda) :
    k.isLambda = true := by
  cases k <;> cases hform <;> rfl

/-- Some forms stand for one kind each. -/
theorem Form.kind_of_ofKind? {k : Kind} {f : Form} (hform : Form.ofKind? k = some f) :
    (k = .propertyDeclaration ↔ f = .property) ∧ (k = .indexerDeclaration ↔ f = .indexer) ∧
      (k = .arrowExpressionClause ↔ f = .arrowClause) ∧
      (k = .localFunctionStatement ↔ f = .localFunction) := by
  cases k <;> cases hform <;> simp

theorem isClosure_node (d : Declaration) : d.node.isClosure = d.isClosure :=
  (Form.isClosure_of_ofKind? d.form_eq).symm

theorem node_kind_property_iff {d : Declaration} :
    d.node.kind = .propertyDeclaration ↔ d.form = .property :=
  (Form.kind_of_ofKind? d.form_eq).1

theorem node_kind_indexer_iff {d : Declaration} :
    d.node.kind = .indexerDeclaration ↔ d.form = .indexer :=
  (Form.kind_of_ofKind? d.form_eq).2.1

theorem node_kind_arrowClause_iff {d : Declaration} :
    d.node.kind = .arrowExpressionClause ↔ d.form = .arrowClause :=
  (Form.kind_of_ofKind? d.form_eq).2.2.1

theorem node_kind_localFunction_iff {d : Declaration} :
    d.node.kind = .localFunctionStatement ↔ d.form = .localFunction :=
  (Form.kind_of_ofKind? d.form_eq).2.2.2

/-- A declaration is determined by its node. -/
theorem eq_of_node_eq {d d' : Declaration} (hnode : d.node = d'.node) : d = d' := by
  have hd := Node.declaration?_node d
  rw [hnode, Node.declaration?_node d'] at hd
  exact (Option.some.inj hd).symm

/-! ## The shape of a body -/

/-- The body of a closure is its closure body. -/
theorem closureBody?_node {d : Declaration} (hclosure : d.isClosure = true) :
    d.node.closureBody? = d.ownBody?.map Body.node := by
  obtain ⟨n, form, hform⟩ := d
  cases form <;> try cases hclosure
  · have hkind : n.kind = .localFunctionStatement :=
      (Form.kind_of_ofKind? hform).2.2.2.mpr rfl
    simp only [ownBody?, Node.blockOrArrow?, Node.closureBody?, hkind]
    rw [if_neg (by decide), if_pos (by decide)]
    cases n.block? with
    | some c => rfl
    | none => cases n.arrowExpression? <;> rfl
  · simp only [ownBody?, Node.blockOrExpression?, Node.closureBody?]
    rw [if_pos (Form.isLambda_of_ofKind? hform)]
    cases n.block? with
    | some c => rfl
    | none => cases n.expression? <;> rfl

end Declaration

namespace Node

/-- Every closure is a declaration. -/
theorem exists_declaration_of_isClosure {c : Node} (hclosure : c.isClosure = true) :
    ∃ d : Declaration, d.node = c ∧ d.isClosure = true := by
  have hsome : (Declaration.Form.ofKind? c.kind).isSome = true := by
    rw [isClosure] at hclosure
    revert hclosure
    cases c.kind <;> decide
  obtain ⟨form, hform⟩ := Option.isSome_iff_exists.mp hsome
  refine ⟨⟨c, form, hform⟩, rfl, ?_⟩
  rw [← Declaration.isClosure_node]
  exact hclosure

/-- The body of a closure node is the body of a declaration. -/
theorem exists_ownBody?_of_closureBody? {c n : Node} (hclosure : c.isClosure = true)
    (hn : c.closureBody? = some n) :
    ∃ (d : Declaration) (b : Body),
      d.node = c ∧ d.isClosure = true ∧ d.ownBody? = some b ∧ b.node = n := by
  obtain ⟨d, rfl, hd⟩ := exists_declaration_of_isClosure hclosure
  rw [Declaration.closureBody?_node hd, Option.map_eq_some_iff] at hn
  obtain ⟨b, hb, hbn⟩ := hn
  exact ⟨d, b, rfl, hd, hb, hbn⟩

theorem closureAbove?_of_child {n c : Node} (hchild : c ∈ n.childNodes)
    (hkind : n.kind ≠ .arrowExpressionClause) : c.closureAbove? = some n := by
  rw [closureAbove?, parent?_of_mem_childNodes hchild, Option.bind_some,
    if_neg (by simpa using hkind)]

theorem closureAbove?_of_arrow {a c : Node} (hchild : c ∈ a.childNodes)
    (hkind : a.kind = .arrowExpressionClause) :
    c.closureAbove? = a.parent?.filter fun o => o.kind == .localFunctionStatement := by
  rw [closureAbove?, parent?_of_mem_childNodes hchild, Option.bind_some, if_pos (by simp [hkind])]

theorem shape_of_isClosureBody {n : Node} (hclosure : n.isClosureBody = true)
    (hkind : n.kind = .block ∨ n.kind.isExpression = true) : n.shape true = .ok .closureBody := by
  rw [shape, if_pos hclosure, if_neg (by simp), if_pos (by simpa using hkind)]

theorem shape_of_openShape? {n : Node} {s : Shape} (hclosure : n.isClosureBody = false)
    (hopen : n.openShape? = some s) (allowClosure : Bool) : n.shape allowClosure = .ok s := by
  rw [shape, if_neg (by simp [hclosure]), hopen]

theorem shape_of_openShape?_eq_none {n : Node} (hclosure : n.isClosureBody = false)
    (hopen : n.openShape? = none) (allowClosure : Bool) :
    n.shape allowClosure = .error (.notABody n.kind n.range) := by
  rw [shape, if_neg (by simp [hclosure]), hopen]

theorem openShape?_of_initializerShape? {n : Node} {s : Shape}
    (hexpression : n.kind.isExpression = true) (hshape : n.initializerShape? = some s) :
    n.openShape? = some s := by
  have hblock : n.kind ≠ .block := by
    intro hkind
    rw [hkind] at hexpression
    cases hexpression
  rw [openShape?, if_neg (by simpa using hblock), if_pos hexpression, hshape, Option.some_or]

theorem initializerShape?_of_arrow {a e : Node} (hchild : e ∈ a.childNodes)
    (hkind : a.kind = .arrowExpressionClause) :
    e.initializerShape? = some .arrowExpression := by
  rw [initializerShape?, parent?_of_mem_childNodes hchild, Option.bind_some, hkind]

theorem initializerShape?_of_property {p v e : Node} (hclause : v ∈ p.childNodes)
    (hchild : e ∈ v.childNodes) (hkind : v.kind = .equalsValueClause)
    (hproperty : p.kind = .propertyDeclaration) :
    e.initializerShape? = some .propertyInitializer := by
  rw [initializerShape?, parent?_of_mem_childNodes hchild, Option.bind_some, hkind]
  simp only [parent?_of_mem_childNodes hclause, Option.map_some, hproperty]

end Node

namespace Declaration

/-- The shape that the body of a declaration has. -/
def bodyShape (d : Declaration) (b : Body) : Shape :=
  if d.isClosure then .closureBody
  else if d.form = .property then .propertyInitializer
  else if b.form = .block then .block
  else .arrowExpression

/-- The body of a closure is recognised as a closure body. -/
theorem isClosureBody_of_ownBody? {d : Declaration} {b : Body} (hb : d.ownBody? = some b)
    (hclosure : d.isClosure = true) : b.node.isClosureBody = true := by
  have habove : b.node.closureAbove? = some d.node := by
    have hform : d.form ≠ .arrowClause := by
      intro hform
      rw [isClosure, hform] at hclosure
      cases hclosure
    have hkind : d.node.kind ≠ .arrowExpressionClause := fun h =>
      hform (node_kind_arrowClause_iff.mp h)
    cases bodyPlace_of_ownBody? hb with
    | block _ hchild _ => exact Node.closureAbove?_of_child hchild hkind
    | arrow hforms hclause harrow hchild _ =>
      have hlocal : d.form = .localFunction := by
        obtain ⟨-, -, -, hlambda⟩ := hforms
        rw [isClosure] at hclosure
        cases hf : d.form <;> simp_all [Form.isClosure]
      rw [Node.closureAbove?_of_arrow hchild harrow, Node.parent?_of_mem_childNodes hclause,
        Option.filter_some, if_pos]
      rw [node_kind_localFunction_iff.mpr hlocal]
      rfl
    | lambda _ hchild _ => exact Node.closureAbove?_of_child hchild hkind
    | initializer hproperty _ _ _ _ =>
      rw [isClosure, hproperty] at hclosure
      cases hclosure
    | clause harrow _ _ _ _ => exact absurd harrow hform
  simp [Node.isClosureBody, habove, closureBody?_node hclosure, hb, isClosure_node, hclosure,
    Node.Same.refl]

/-- The body of any other declaration is not taken for a closure body. -/
theorem not_isClosureBody_of_ownBody? {d : Declaration} {b : Body} (hb : d.ownBody? = some b)
    (hclosure : d.isClosure = false) : b.node.isClosureBody = false := by
  have hnode : d.node.isClosure = false := by rw [isClosure_node, hclosure]
  have hlocal : d.form ≠ .localFunction := by
    intro hform
    rw [isClosure, hform] at hclosure
    cases hclosure
  cases bodyPlace_of_ownBody? hb with
  | block hforms hchild _ =>
    have hkind : d.node.kind ≠ .arrowExpressionClause := fun h =>
      hforms.2.2 (node_kind_arrowClause_iff.mp h)
    simp [Node.isClosureBody, Node.closureAbove?_of_child hchild hkind, hnode]
  | arrow _ hclause harrow hchild _ =>
    have hkind : d.node.kind ≠ .localFunctionStatement := fun h =>
      hlocal (node_kind_localFunction_iff.mp h)
    simp [Node.isClosureBody, Node.closureAbove?_of_arrow hchild harrow,
      Node.parent?_of_mem_childNodes hclause, hkind]
  | lambda hlambda _ _ =>
    rw [isClosure, hlambda] at hclosure
    cases hclosure
  | @initializer v _ _ _ hequals hchild _ =>
    have hkind : v.kind ≠ .arrowExpressionClause := by simp [hequals]
    have hopen : v.isClosure = false := by rw [Node.isClosure, hequals]; rfl
    simp [Node.isClosureBody, Node.closureAbove?_of_child hchild hkind, hopen]
  | @clause p _ harrow hparent howner hchild _ =>
    have hkind : p.kind ≠ .localFunctionStatement := by rcases howner with h | h <;> simp [h]
    simp [Node.isClosureBody,
      Node.closureAbove?_of_arrow hchild (node_kind_arrowClause_iff.mpr harrow), hparent, hkind]

/-- The body of a declaration has the shape that belongs to the declaration. -/
theorem shape_of_ownBody? {d : Declaration} {b : Body} (hb : d.ownBody? = some b) :
    b.node.shape d.isClosure = .ok (d.bodyShape b) := by
  cases hclosure : d.isClosure with
  | true =>
    rw [bodyShape, if_pos hclosure]
    exact Node.shape_of_isClosureBody (isClosureBody_of_ownBody? hb hclosure)
      (bodyPlace_of_ownBody? hb).kind
  | false =>
    have hnot := not_isClosureBody_of_ownBody? hb hclosure
    apply Node.shape_of_openShape? hnot
    rw [bodyShape, if_neg (by simp [hclosure])]
    cases bodyPlace_of_ownBody? hb with
    | block hforms _ hkind =>
      rw [if_neg hforms.1, if_pos rfl, Node.openShape?, if_pos (by simp [hkind])]
    | arrow hforms _ harrow hchild hexpression =>
      rw [if_neg hforms.1, if_neg (by simp)]
      exact Node.openShape?_of_initializerShape? hexpression
        (Node.initializerShape?_of_arrow hchild harrow)
    | lambda hlambda _ _ =>
      rw [isClosure, hlambda] at hclosure
      cases hclosure
    | initializer hproperty hclause hequals hchild hexpression =>
      rw [if_pos hproperty]
      exact Node.openShape?_of_initializerShape? hexpression
        (Node.initializerShape?_of_property hclause hchild hequals
          (node_kind_property_iff.mpr hproperty))
    | clause harrow _ _ hchild hexpression =>
      rw [if_neg (by simp [harrow]), if_neg (by simp)]
      exact Node.openShape?_of_initializerShape? hexpression
        (Node.initializerShape?_of_arrow hchild (node_kind_arrowClause_iff.mpr harrow))

/-- Looking up a body never fails. -/
theorem body_eq (d : Declaration) :
    d.body = ⟨.ok d.ownBody?, [.bodyResolved d.node.kind d.ownBody?.isSome]⟩ := by
  rw [body]
  cases hb : d.ownBody? with
  | none => rfl
  | some b =>
    have hrequire : b.node.requireBody d.isClosure = ⟨.ok (), []⟩ := by
      rw [Node.requireBody, shape_of_ownBody? hb]
    simp only [hrequire]
    rfl

/-! ## What a body holds -/

/-- A node lies in the body of a declaration, or is the body. -/
def Holds (d : Declaration) (n : Node) : Prop := ∃ b, d.ownBody? = some b ∧ b.node ∈ n.ancestors

/-- The arrow clause of a member that is no property and no indexer owns nothing. -/
theorem ownBody?_of_arrow {d d' : Declaration} (hclause : d'.node ∈ d.node.childNodes)
    (hkind : d'.node.kind = .arrowExpressionClause) (hproperty : d.form ≠ .property)
    (hindexer : d.form ≠ .indexer) : d'.ownBody? = none := by
  have hform := node_kind_arrowClause_iff.mp hkind
  have hp : d.node.kind ≠ .propertyDeclaration := fun h => hproperty (node_kind_property_iff.mp h)
  have hi : d.node.kind ≠ .indexerDeclaration := fun h => hindexer (node_kind_indexer_iff.mp h)
  simp [ownBody?, hform, Node.parent?_of_mem_childNodes hclause, hp, hi]

/-- A body stands strictly below its declaration. -/
theorem mem_properAncestors_of_ownBody? {d : Declaration} {b : Body} (hb : d.ownBody? = some b) :
    d.node ∈ b.node.properAncestors := by
  have hchildren : ∀ {a e : Node}, a ∈ d.node.childNodes → e ∈ a.childNodes →
      d.node ∈ e.properAncestors := by
    intro a e ha he
    exact Node.mem_properAncestors_trans (Node.mem_properAncestors_of_mem_childNodes ha)
      (Node.mem_ancestors_of_mem_childNodes he)
  cases bodyPlace_of_ownBody? hb with
  | block _ hchild _ => exact Node.mem_properAncestors_of_mem_childNodes hchild
  | arrow _ hclause _ hchild _ => exact hchildren hclause hchild
  | lambda _ hchild _ => exact Node.mem_properAncestors_of_mem_childNodes hchild
  | initializer _ hclause _ hchild _ => exact hchildren hclause hchild
  | clause _ _ _ hchild _ => exact Node.mem_properAncestors_of_mem_childNodes hchild

theorem mem_ancestors_of_ownBody? {d : Declaration} {b : Body} (hb : d.ownBody? = some b) :
    d.node ∈ b.node.ancestors :=
  (Node.mem_properAncestors_iff.mp (mem_properAncestors_of_ownBody? hb)).1

/-- A body stands in the tree of its declaration. -/
theorem root_of_ownBody? {d : Declaration} {b : Body} (hb : d.ownBody? = some b) :
    b.node.root = d.node.root :=
  (Node.root_of_mem_ancestors (mem_ancestors_of_ownBody? hb)).symm

/-- No declaration strictly between a declaration and its body has a body.  What stands there is an
arrow clause, which has none, or an `= value` clause, which is no declaration. -/
theorem ownBody?_of_between {d d' : Declaration} {b : Body} (hb : d.ownBody? = some b)
    (hbelow : d.node ∈ d'.node.properAncestors) (habove : d'.node ∈ b.node.properAncestors) :
    d'.ownBody? = none := by
  cases bodyPlace_of_ownBody? hb with
  | block _ hchild _ => exact absurd hbelow (Node.not_between_of_mem_childNodes hchild habove)
  | arrow hforms hclause harrow hchild _ =>
    obtain rfl := Node.eq_of_between hclause hchild habove hbelow
    exact ownBody?_of_arrow hclause harrow hforms.1 hforms.2.1
  | lambda _ hchild _ => exact absurd hbelow (Node.not_between_of_mem_childNodes hchild habove)
  | initializer _ hclause hequals hchild _ =>
    obtain rfl := Node.eq_of_between hclause hchild habove hbelow
    have hform := d'.form_eq
    rw [hequals] at hform
    cases hform
  | clause _ _ _ hchild _ =>
    exact absurd hbelow (Node.not_between_of_mem_childNodes hchild habove)

/-- A declaration stands strictly above what its body holds. -/
theorem Holds.mem_properAncestors {d : Declaration} {n : Node} (hholds : d.Holds n) :
    d.node ∈ n.properAncestors := by
  obtain ⟨b, hb, hbn⟩ := hholds
  exact Node.mem_properAncestors_trans (mem_properAncestors_of_ownBody? hb) hbn

/-! ## The owner of a node -/

end Declaration

/-- A body holds a node if and only if it is the node or stands above it, provided that one of the
two covers text. -/
theorem Body.contains_iff {b : Body} {n : Node} (hroot : b.node.root = n.root)
    (hwidth : b.node.width ≠ 0 ∨ n.width ≠ 0) : b.contains n = true ↔ b.node ∈ n.ancestors := by
  rw [contains, List.any_eq_true]
  constructor
  · intro h
    rcases h with ⟨a, ha, hsame⟩
    have haroot : a.root = b.node.root := (Node.root_of_mem_ancestors ha).trans hroot.symm
    have hsame : a.Same b.node := of_decide_eq_true hsame
    rcases hwidth with hb | hn
    · rwa [Node.eq_of_same haroot.symm hsame.symm hb]
    · rwa [← Node.eq_of_same haroot hsame (Node.width_ne_zero_of_mem_ancestors ha hn)]
  · intro hbn
    exact ⟨b.node, hbn, decide_eq_true (Node.Same.refl b.node)⟩

namespace Declaration

/-- The search for an owner never fails, and takes the first declaration whose body holds the
node. -/
theorem firstAround_value (n : Node) (ds : List Declaration) :
    (firstAround n ds).value = .ok (ds.find? fun d => d.ownBody?.any (·.contains n)) := by
  induction ds with
  | nil => rfl
  | cons d ds ih =>
    rw [firstAround, body_eq]
    cases hholds : d.ownBody?.any (·.contains n) with
    | true => simp only [List.find?_cons, hholds, if_true]
    | false => simp only [List.find?_cons, hholds, ← ih]; rfl

/-- The declarations strictly above a node. -/
theorem mem_filterMap_declaration?_iff {l : List Node} {d : Declaration} :
    d ∈ l.filterMap Node.declaration? ↔ d.node ∈ l := by
  rw [List.mem_filterMap]
  constructor
  · intro h
    rcases h with ⟨m, hm, hd⟩
    rwa [Node.node_of_declaration? hd]
  · intro hd
    exact ⟨d.node, hd, Node.declaration?_node d⟩

theorem any_contains_iff {n : Node} (hwidth : n.width ≠ 0) {d : Declaration}
    (habove : d.node ∈ n.properAncestors) :
    d.ownBody?.any (·.contains n) = true ↔ d.Holds n := by
  rw [Option.any_eq_true]
  constructor
  · intro h
    rcases h with ⟨b, hb, hcontains⟩
    refine ⟨b, hb, (Body.contains_iff ?_ (.inr hwidth)).mp hcontains⟩
    have hn := (Node.mem_properAncestors_iff.mp habove).1
    rw [root_of_ownBody? hb, Node.root_of_mem_ancestors hn]
  · intro h
    rcases h with ⟨b, hb, hbn⟩
    exact ⟨b, hb, (Body.contains_iff (Node.root_of_mem_ancestors hbn) (.inr hwidth)).mpr hbn⟩

end Declaration

namespace Node

open Declaration

theorem owner_value (n : Node) :
    n.owner.value = .ok ((n.properAncestors.filterMap declaration?).find? fun d =>
      d.ownBody?.any (·.contains n)) :=
  firstAround_value n _

/-- A node without owner lies in no body. -/
theorem not_holds_of_owner_none {n : Node} (hwidth : n.width ≠ 0)
    (howner : n.owner.value = .ok none) (d : Declaration) : ¬ d.Holds n := by
  intro hholds
  rw [owner_value, Except.ok.injEq, List.find?_eq_none] at howner
  have habove := hholds.mem_properAncestors
  exact howner d (mem_filterMap_declaration?_iff.mpr habove)
    ((any_contains_iff hwidth habove).mpr hholds)

/-- A node that lies in some body has an owner. -/
theorem exists_owner {n : Node} (hwidth : n.width ≠ 0) {d : Declaration} (hholds : d.Holds n) :
    ∃ d' : Declaration, n.owner.value = .ok (some d') := by
  cases howner : (n.properAncestors.filterMap declaration?).find? fun d =>
      d.ownBody?.any (·.contains n) with
  | none =>
    rw [← Except.ok.injEq, ← owner_value] at howner
    exact absurd hholds (not_holds_of_owner_none hwidth howner d)
  | some d' => exact ⟨d', by rw [owner_value, howner]⟩

/-- The owner of a node holds it, and lies at or below everything that holds it. -/
theorem holds_of_owner {n : Node} (hwidth : n.width ≠ 0) {d : Declaration}
    (howner : n.owner.value = .ok (some d)) :
    d.Holds n ∧ ∀ d' : Declaration, d'.Holds n → d'.node ∈ d.node.ancestors := by
  rw [owner_value, Except.ok.injEq, List.find?_eq_some_iff_append] at howner
  obtain ⟨hcontains, inner, outer, hsplit, hinner⟩ := howner
  have hmem : ∀ x : Declaration, x ∈ inner ++ d :: outer ↔ x.node ∈ n.properAncestors := by
    intro x
    rw [← hsplit, mem_filterMap_declaration?_iff]
  have habove : d.node ∈ n.properAncestors := (hmem d).mp (by simp)
  have horder : (inner ++ d :: outer).Pairwise fun x y => y.node ∈ x.node.properAncestors := by
    rw [← hsplit]
    refine List.Pairwise.filterMap _ ?_ (List.pairwise_cons.mp n.pairwise_ancestors).2
    intro a b hab x hx y hy
    rwa [node_of_declaration? hx, node_of_declaration? hy]
  refine ⟨(any_contains_iff hwidth habove).mp hcontains, ?_⟩
  intro d' hholds
  have habove' := hholds.mem_properAncestors
  have hcontains' := (any_contains_iff hwidth habove').mpr hholds
  rcases List.mem_append.mp ((hmem d').mpr habove') with hd' | hd'
  · have hnot := hinner d' hd'
    rw [hcontains'] at hnot
    cases hnot
  · rcases List.mem_cons.mp hd' with rfl | hd'
    · exact mem_ancestors_self d'.node
    · have hpair := (List.pairwise_cons.mp (List.pairwise_append.mp horder).2.1).1 d' hd'
      exact (mem_properAncestors_iff.mp hpair).1

/-- The owner of a node that covers text is the innermost declaration that holds it. -/
theorem owner_eq_some_iff {n : Node} (hwidth : n.width ≠ 0) {d : Declaration} :
    n.owner.value = .ok (some d) ↔
      d.Holds n ∧ ∀ d' : Declaration, d'.Holds n → d'.node ∈ d.node.ancestors := by
  constructor
  · exact holds_of_owner hwidth
  · intro h
    rcases h with ⟨hholds, hinnermost⟩
    obtain ⟨d', howner⟩ := exists_owner hwidth hholds
    obtain ⟨hholds', hinnermost'⟩ := holds_of_owner hwidth howner
    have hnode := mem_ancestors_antisymm (hinnermost' d hholds) (hinnermost d' hholds')
    rw [howner, eq_of_node_eq hnode]

end Node

end LiveEdit
