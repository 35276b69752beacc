import LiveEdit.Proofs.Bodies

/-!
# The shape of what is resolved

`Declaration.body` and `Node.closureBody?` look for code below an owner.  `Node.shape` starts at a
node and looks for an owner above it.  The two directions agree, in every tree.

* `exists_closure_of_isClosureBody`: above what is taken for the body of a closure stands a closure
  whose body is the same.
* `kind_of_isClosureBody`: what is taken for the body of a closure is a block or an expression,
  even where it is only the same as the body.
* `shape_of_compilationUnit`: a compilation unit is never the body of a closure.
* `shape_of_resolved_bodies`: a resolved body is accepted, in the shape that its owner gives it.
-/

namespace LiveEdit

namespace Node

/-! ## Closure bodies, from below -/

/-- The closure that could own a node stands above the node. -/
theorem mem_ancestors_of_closureAbove? {n o : Node} (habove : n.closureAbove? = some o) :
    o ∈ n.ancestors := by
  obtain ⟨p, hp, howner⟩ := Option.bind_eq_some_iff.mp habove
  have hpn := mem_ancestors_of_mem_childNodes (mem_childNodes_of_parent? hp)
  split at howner
  · obtain ⟨ho, -⟩ := Option.filter_eq_some_iff.mp howner
    have hop := mem_ancestors_of_mem_childNodes (mem_childNodes_of_parent? ho)
    exact mem_ancestors_trans hop hpn
  · rwa [← Option.some.inj howner]

/-- The body of a closure stands below it and is a block or an expression. -/
theorem place_of_closureBody? {c b : Node} (hclosure : c.isClosure = true)
    (hb : c.closureBody? = some b) :
    c ∈ b.ancestors ∧ (b.kind = .block ∨ b.kind.isExpression = true) := by
  obtain ⟨d, body, rfl, -, hbody, rfl⟩ := exists_ownBody?_of_closureBody? hclosure hb
  exact ⟨Declaration.mem_ancestors_of_ownBody? hbody,
    (Declaration.bodyPlace_of_ownBody? hbody).kind⟩

/-- A node is taken for the body of a closure if the closure above it has a body that is the same
as the node.  The body need not be the node, and shows the same subtree. -/
theorem exists_closure_of_isClosureBody {n : Node} (hbody : n.isClosureBody = true) :
    ∃ c b, c ∈ n.ancestors ∧ c.isClosure = true ∧ c.closureBody? = some b ∧ b.root = n.root ∧
      b.Same n := by
  rw [isClosureBody, Option.any_eq_true] at hbody
  obtain ⟨c, habove, howns⟩ := hbody
  rw [Bool.and_eq_true, Option.any_eq_true] at howns
  obtain ⟨hclosure, b, hb, hsame⟩ := howns
  have hcn := mem_ancestors_of_closureAbove? habove
  have hcb := (place_of_closureBody? hclosure hb).1
  have hroot : b.root = n.root := by rw [← root_of_mem_ancestors hcb, root_of_mem_ancestors hcn]
  exact ⟨c, b, hcn, hclosure, hb, hroot, of_decide_eq_true hsame⟩

/-- What is taken for the body of a closure is a block or an expression. -/
theorem kind_of_isClosureBody {n : Node} (hbody : n.isClosureBody = true) :
    n.kind = .block ∨ n.kind.isExpression = true := by
  obtain ⟨c, b, -, hclosure, hb, hroot, hsame⟩ := exists_closure_of_isClosureBody hbody
  have hkind := (place_of_closureBody? hclosure hb).2
  obtain ⟨-, htree, -⟩ := (same_iff hroot).mp hsame
  rwa [(Tree.node.inj htree).1] at hkind

/-! ## Compilation units -/

/-- A compilation unit is a body if it starts with a statement, and only then. -/
theorem shape_of_compilationUnit {u : Node} (hunit : u.kind = .compilationUnit)
    (allowClosure : Bool) :
    u.shape allowClosure =
      if u.startsWithStatement then .ok .topLevelStatements
      else .error (.notABody u.kind u.range) := by
  have hclosure : u.isClosureBody = false := by
    refine Bool.eq_false_iff.mpr ?_
    intro hbody
    have hkind := kind_of_isClosureBody hbody
    rw [hunit] at hkind
    rcases hkind with hblock | hexpression
    · cases hblock
    · cases hexpression
  have hopen : u.openShape? = if u.startsWithStatement then some .topLevelStatements else none := by
    simp [openShape?, hunit, Kind.isExpression]
  rw [shape, if_neg (by simp [hclosure]), hopen]
  cases u.startsWithStatement <;> rfl

end Node

namespace Declaration

/-! ## Resolved bodies -/

/-- The form of a body and the kind of its node go together. -/
theorem BodyPlace.form {d : Declaration} {b : Body} (hplace : BodyPlace d b) :
    b.form = .block ∧ b.node.kind = .block ∨
      b.form = .expression ∧ b.node.kind.isExpression = true := by
  cases hplace with
  | block _ _ hkind => exact .inl ⟨rfl, hkind⟩
  | arrow _ _ _ _ hexpression => exact .inr ⟨rfl, hexpression⟩
  | lambda _ _ hexpression => exact .inr ⟨rfl, hexpression⟩
  | initializer _ _ _ _ hexpression => exact .inr ⟨rfl, hexpression⟩
  | clause _ _ _ _ hexpression => exact .inr ⟨rfl, hexpression⟩

/-- The shape of a body tells the form of its declaration, and of the body where that decides. -/
theorem bodyShape_eq_iff {d : Declaration} {b : Body}
    (hform : b.form = .block ∨ b.form = .expression) :
    (d.bodyShape b = .closureBody ↔ d.form = .localFunction ∨ d.form = .lambda) ∧
    (d.bodyShape b = .propertyInitializer ↔ d.form = .property) ∧
    (d.bodyShape b = .block ↔
      ¬ (d.form = .localFunction ∨ d.form = .lambda ∨ d.form = .property) ∧ b.form = .block) ∧
    (d.bodyShape b = .arrowExpression ↔
      ¬ (d.form = .localFunction ∨ d.form = .lambda ∨ d.form = .property) ∧
        b.form = .expression) := by
  rw [bodyShape, isClosure]
  rcases hform with hform | hform <;> cases d.form <;> simp [Form.isClosure, hform]

end Declaration

/-- Looking up a body never fails, whatever the tree: it reports whether there is one, and nothing
else.  The body found is a block or an expression, and it is accepted in exactly one shape: as the
body of a closure, as the initial value of a property, or else as a block or as the expression
after an arrow.  The body of a closure node is the body of its declaration.  A compilation unit
has a body if and only if it is accepted as one. -/
theorem shape_of_resolved_bodies :
    (∀ d : Declaration, ∃ found : Option Body,
      d.body = ⟨.ok found, [.bodyResolved d.node.kind found.isSome]⟩ ∧
      ∀ b, found = some b →
        (b.form = .block ∧ b.node.kind = .block ∨
          b.form = .expression ∧ b.node.kind.isExpression = true) ∧
        ∃ s, b.node.shape d.isClosure = .ok s ∧
          (s = .closureBody ↔ d.form = .localFunction ∨ d.form = .lambda) ∧
          (s = .propertyInitializer ↔ d.form = .property) ∧
          (s = .block ↔
            ¬ (d.form = .localFunction ∨ d.form = .lambda ∨ d.form = .property) ∧
              b.form = .block) ∧
          (s = .arrowExpression ↔
            ¬ (d.form = .localFunction ∨ d.form = .lambda ∨ d.form = .property) ∧
              b.form = .expression)) ∧
    (∀ c : Node, c.isClosure = true →
      ∃ d, c.declaration? = some d ∧ ∃ found : Option Body,
        d.body.value = .ok found ∧ c.closureBody? = found.map Body.node) ∧
    (∀ u : Node, u.kind = .compilationUnit → ∀ allowClosure : Bool,
      (u.topLevelBody?.isSome = true ↔ u.shape allowClosure = .ok .topLevelStatements)) := by
  refine ⟨?_, ?_, ?_⟩
  · intro d
    refine ⟨d.ownBody?, d.body_eq, ?_⟩
    intro b hb
    have hform := (Declaration.bodyPlace_of_ownBody? hb).form
    refine ⟨hform, d.bodyShape b, Declaration.shape_of_ownBody? hb, ?_⟩
    exact Declaration.bodyShape_eq_iff (hform.imp And.left And.left)
  · intro c hclosure
    obtain ⟨d, rfl, hd⟩ := Node.exists_declaration_of_isClosure hclosure
    refine ⟨d, Node.declaration?_node d, d.ownBody?, ?_, Declaration.closureBody?_node hd⟩
    rw [d.body_eq]
  · intro u hunit allowClosure
    rw [Node.shape_of_compilationUnit hunit, Node.topLevelBody?]
    cases u.startsWithStatement <;> simp

end LiveEdit
