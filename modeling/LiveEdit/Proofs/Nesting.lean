import LiveEdit.Proofs.Ownership

/-!
# How bodies nest

A body stands at most two steps below its declaration, and the step between them is a clause.  A
clause is neither a block nor an expression, so no body stands there, and
`Declaration.ownBody?_of_between` says that no declaration with a body stands there either.

* `eq_of_body_node_eq`: a body has one owner.
* `mem_ancestors_of_body_below`: a declaration whose body lies in another body lies in it whole.
* `bodies_apart_or_nested`: two bodies share nothing, or one of the two declarations lies in the
  body of the other.
* `bodies_nest` puts these together for the declarations of a tree.
-/

namespace LiveEdit

namespace Declaration

variable {d d' : Declaration} {b b' : Body}

/-! ## Between a declaration and its body -/

/-- A clause is no body. -/
theorem BodyPlace.kind_ne_clause (hplace : BodyPlace d b) :
    b.node.kind ≠ .arrowExpressionClause ∧ b.node.kind ≠ .equalsValueClause := by
  rcases hplace.kind with hblock | hexpression
  · rw [hblock]
    decide
  · constructor
    · intro hkind
      rw [hkind] at hexpression
      cases hexpression
    · intro hkind
      rw [hkind] at hexpression
      cases hexpression

/-- No body stands strictly between a declaration and its body. -/
theorem not_body_between (hb : d.ownBody? = some b) (hb' : d'.ownBody? = some b')
    (hbelow : d'.node ∈ b.node.properAncestors) : b.node ∉ b'.node.properAncestors := by
  intro habove
  have hclause := (bodyPlace_of_ownBody? hb).kind_ne_clause
  cases bodyPlace_of_ownBody? hb' with
  | block _ hchild _ => exact Node.not_between_of_mem_childNodes hchild habove hbelow
  | arrow _ hstep hkind hchild _ =>
    rw [Node.eq_of_between hstep hchild habove hbelow] at hclause
    exact hclause.1 hkind
  | lambda _ hchild _ => exact Node.not_between_of_mem_childNodes hchild habove hbelow
  | initializer _ hstep hkind hchild _ =>
    rw [Node.eq_of_between hstep hchild habove hbelow] at hclause
    exact hclause.2 hkind
  | clause _ _ _ hchild _ => exact Node.not_between_of_mem_childNodes hchild habove hbelow

/-! ## One owner -/

/-- The outer one of two declarations that own one node is the inner one. -/
theorem eq_of_body_node_eq_of_above (hb : d.ownBody? = some b) (hb' : d'.ownBody? = some b')
    (hnode : b.node = b'.node) (habove : d.node ∈ d'.node.ancestors) : d = d' := by
  by_cases hsame : d.node = d'.node
  · exact eq_of_node_eq hsame
  · have hbelow := mem_properAncestors_of_ownBody? hb'
    rw [← hnode] at hbelow
    rw [ownBody?_of_between hb (Node.mem_properAncestors_iff.mpr ⟨habove, hsame⟩) hbelow] at hb'
    cases hb'

/-- A body has one owner. -/
theorem eq_of_body_node_eq (hb : d.ownBody? = some b) (hb' : d'.ownBody? = some b')
    (hnode : b.node = b'.node) : d = d' := by
  have hd := mem_ancestors_of_ownBody? hb
  have hd' := mem_ancestors_of_ownBody? hb'
  rw [← hnode] at hd'
  rcases Node.mem_ancestors_total hd hd' with habove | habove
  · exact eq_of_body_node_eq_of_above hb hb' hnode habove
  · exact (eq_of_body_node_eq_of_above hb' hb hnode.symm habove).symm

/-! ## Bodies in bodies -/

/-- A declaration whose body lies in the body of another lies in that body itself.  Otherwise the
outer body would stand between the inner declaration and its body. -/
theorem mem_ancestors_of_body_below (hb : d.ownBody? = some b) (hb' : d'.ownBody? = some b')
    (hne : d ≠ d') (hbelow : b.node ∈ b'.node.ancestors) : b.node ∈ d'.node.ancestors := by
  have hd' := mem_ancestors_of_ownBody? hb'
  rcases Node.mem_ancestors_total hbelow hd' with hdone | habove
  · exact hdone
  by_cases hsame : d'.node = b.node
  · rw [hsame]
    exact Node.mem_ancestors_self b.node
  exfalso
  refine not_body_between hb hb' (Node.mem_properAncestors_iff.mpr ⟨habove, hsame⟩) ?_
  exact Node.mem_properAncestors_iff.mpr ⟨hbelow, fun h => hne (eq_of_body_node_eq hb hb' h)⟩

/-- Two bodies share no node, or one of the declarations lies in the body of the other. -/
theorem bodies_apart_or_nested (hb : d.ownBody? = some b) (hb' : d'.ownBody? = some b')
    (hne : d ≠ d') :
    (∀ n ∈ b.node.preorder, n ∉ b'.node.preorder) ∨
      d'.node ∈ b.node.preorder ∨ d.node ∈ b'.node.preorder := by
  simp only [Node.mem_preorder_iff_ancestors]
  by_cases hshared : ∃ n : Node, b.node ∈ n.ancestors ∧ b'.node ∈ n.ancestors
  · obtain ⟨n, hn, hn'⟩ := hshared
    rcases Node.mem_ancestors_total hn hn' with hle | hle
    · exact .inr (.inl (mem_ancestors_of_body_below hb hb' hne hle))
    · exact .inr (.inr (mem_ancestors_of_body_below hb' hb hne.symm hle))
  · exact .inl fun n hn hn' => hshared ⟨n, hn, hn'⟩

end Declaration

namespace Node

open Declaration

/-- How the bodies of a tree stand to each other, for every tree and all of its declarations.

Two declarations own bodies at different places.  If one body lies in the other, the whole
declaration of the inner body lies in the outer one.  So two bodies share no node, or one of the
declarations lies in the body of the other.  In particular an arrow clause and the declaration
around it never own one expression. -/
theorem bodies_nest (root : Node) :
    (∀ d ∈ root.declarations, ∀ d' ∈ root.declarations, d ≠ d' → ∀ b b',
      d.body.value = .ok (some b) → d'.body.value = .ok (some b') →
        b.node.path ≠ b'.node.path ∧
        (b'.node ∈ b.node.preorder → d'.node ∈ b.node.preorder) ∧
        ((∀ n ∈ b.node.preorder, n ∉ b'.node.preorder) ∨
          d'.node ∈ b.node.preorder ∨ d.node ∈ b'.node.preorder)) ∧
    ∀ clause ∈ root.declarations, clause.form = .arrowClause →
      ∀ d ∈ root.declarations, clause.node ∈ d.node.childNodes → ∀ b b',
        clause.body.value = .ok (some b) → d.body.value = .ok (some b') →
          b.node.path ≠ b'.node.path := by
  have hplaces : ∀ d ∈ root.declarations, ∀ d' ∈ root.declarations, d ≠ d' → ∀ b b',
      d.body.value = .ok (some b) → d'.body.value = .ok (some b') →
        b.node.path ≠ b'.node.path := by
    intro d hd d' hd' hne b b' hb hb' hpath
    rw [body_value_eq_some_iff] at hb hb'
    have hroot : b.node.root = b'.node.root := by
      rw [root_of_ownBody? hb, root_of_ownBody? hb',
        ← root_of_mem_ancestors (mem_declarations_iff.mp hd),
        ← root_of_mem_ancestors (mem_declarations_iff.mp hd')]
    exact hne (eq_of_body_node_eq hb hb' (eq_of_root_of_path hroot hpath))
  constructor
  · intro d hd d' hd' hne b b' hb hb'
    refine ⟨hplaces d hd d' hd' hne b b' hb hb', ?_⟩
    rw [body_value_eq_some_iff] at hb hb'
    refine ⟨?_, bodies_apart_or_nested hb hb' hne⟩
    intro hbelow
    rw [mem_preorder_iff_ancestors] at hbelow ⊢
    exact mem_ancestors_of_body_below hb hb' hne hbelow
  · intro clause hclause _ d hd hchild b b' hb hb'
    refine hplaces clause hclause d hd ?_ b b' hb hb'
    intro hsame
    have hlength := length_frames_of_mem_childNodes hchild
    rw [hsame] at hlength
    omega

/-- A property with a lambda as its initial value and with an arrow clause.  The lambda is the body
of the property and so lies in it, and the property and the arrow clause own different things. -/
theorem bodies_nest_in_property :
    let name (s : String) := Tree.node .identifierName [.token .identifier s]
    let initial := Tree.node .equalsValueClause [.node .simpleLambdaExpression [name "x"]]
    let arrow := Tree.node .arrowExpressionClause [name "y"]
    let root : Node := ⟨0, .propertyDeclaration, [initial, arrow], []⟩
    let inValue : List Frame := [⟨.equalsValueClause, [], []⟩, ⟨.propertyDeclaration, [], [arrow]⟩]
    let inArrow : List Frame := [⟨.propertyDeclaration, [initial], []⟩]
    let x : Node := ⟨0, .identifierName, [.token .identifier "x"],
      ⟨.simpleLambdaExpression, [], []⟩ :: inValue⟩
    let y : Node := ⟨0, .identifierName, [.token .identifier "y"],
      ⟨.arrowExpressionClause, [], []⟩ :: inArrow⟩
    let property : Declaration := ⟨root, .property, rfl⟩
    let lambda : Declaration := ⟨⟨0, .simpleLambdaExpression, [name "x"], inValue⟩, .lambda, rfl⟩
    let clause : Declaration :=
      ⟨⟨0, .arrowExpressionClause, [name "y"], inArrow⟩, .arrowClause, rfl⟩
    root.declarations = [property, lambda, clause] ∧
      property.body.value = .ok (some ⟨.expression, lambda.node⟩) ∧
      lambda.body.value = .ok (some ⟨.expression, x⟩) ∧
      clause.body.value = .ok (some ⟨.expression, y⟩) ∧
      lambda.node.path ≠ x.path ∧ lambda.node ∈ lambda.node.preorder ∧
      y.path ≠ lambda.node.path := by
  intro name initial arrow root inValue inArrow x y property lambda clause
  have hdeclarations : root.declarations = [property, lambda, clause] := by decide +kernel
  have hproperty : property.body.value = .ok (some ⟨.expression, lambda.node⟩) := rfl
  have hlambda : lambda.body.value = .ok (some ⟨.expression, x⟩) := rfl
  have hclause : clause.body.value = .ok (some ⟨.expression, y⟩) := rfl
  obtain ⟨hnest, harrow⟩ := bodies_nest root
  rw [hdeclarations] at hnest harrow
  obtain ⟨hplaces, hinside, -⟩ := hnest property (by simp) lambda (by simp) (by decide)
    ⟨.expression, lambda.node⟩ ⟨.expression, x⟩ hproperty hlambda
  refine ⟨hdeclarations, hproperty, hlambda, hclause, hplaces, hinside ?_, ?_⟩
  · decide +kernel
  · exact harrow clause (by simp) rfl property (by simp) (by decide)
      ⟨.expression, y⟩ ⟨.expression, lambda.node⟩ hclause hproperty

end Node

end LiveEdit
