import LiveEdit.Proofs.Nesting

/-!
# The innermost owner

The declarations whose bodies hold one node stand above each other, and between two of them stands
the body of the outer one: `mem_ancestors_of_outer`.  The owner of a node is the last of them on
the way down, and `owner_is_innermost` says this for all declarations of the tree.
-/

namespace LiveEdit

namespace Declaration

variable {d d' : Declaration} {b b' : Body} {n : Node}

/-- Of two declarations whose bodies hold a node, the inner one lies in the body of the outer one.
Otherwise the outer declaration would lie in the inner body, and so below the inner declaration. -/
theorem mem_ancestors_of_outer (hne : d' ≠ d) (hb : d.ownBody? = some b)
    (hb' : d'.ownBody? = some b') (hn : b.node ∈ n.ancestors) (hn' : b'.node ∈ n.ancestors)
    (habove : d'.node ∈ d.node.ancestors) : b'.node ∈ d.node.ancestors := by
  rcases Node.mem_ancestors_total hn hn' with hinner | houter
  · exfalso
    have hbelow : b.node ∈ d.node.ancestors :=
      Node.mem_ancestors_trans (mem_ancestors_of_body_below hb hb' hne.symm hinner) habove
    obtain ⟨hdb, hstrict⟩ := Node.mem_properAncestors_iff.mp (mem_properAncestors_of_ownBody? hb)
    exact hstrict (Node.mem_ancestors_antisymm hdb hbelow)
  · exact mem_ancestors_of_body_below hb' hb hne houter

/-- What holds a node belongs to the tree of the node. -/
theorem Holds.mem_declarations (hholds : d.Holds n) : d ∈ n.root.declarations := by
  have hdn := (Node.mem_properAncestors_iff.mp hholds.mem_properAncestors).1
  rw [Node.mem_declarations_iff, ← Node.mem_preorder_iff_ancestors]
  exact Node.mem_preorder_root hdn

theorem holds_iff :
    d.Holds n ↔ ∃ b, d.body.value = .ok (some b) ∧ b.node ∈ n.ancestors := by
  simp only [Holds, Node.body_value_eq_some_iff]

end Declaration

namespace Node

open Declaration

variable {n : Node}

theorem owner_eq_none_iff (hwidth : n.width ≠ 0) :
    n.owner.value = .ok none ↔ ∀ d : Declaration, ¬ d.Holds n := by
  refine ⟨not_holds_of_owner_none hwidth, ?_⟩
  intro hnone
  rw [owner_value, Except.ok.injEq, List.find?_eq_none]
  intro d hd hcontains
  exact hnone d ((any_contains_iff hwidth (mem_filterMap_declaration?_iff.mp hd)).mp hcontains)

/-- The owner of a node holds the node, and everything else that holds the node holds the owner. -/
theorem owner_eq_some_iff_holds (hwidth : n.width ≠ 0) {d : Declaration} :
    n.owner.value = .ok (some d) ↔
      d.Holds n ∧ ∀ d' : Declaration, d'.Holds n → d' ≠ d → d'.Holds d.node := by
  rw [owner_eq_some_iff hwidth]
  constructor
  · intro h
    rcases h with ⟨⟨b, hb, hbn⟩, hinnermost⟩
    refine ⟨⟨b, hb, hbn⟩, ?_⟩
    intro d' hholds hne
    have habove := hinnermost d' hholds
    obtain ⟨b', hb', hbn'⟩ := hholds
    exact ⟨b', hb', mem_ancestors_of_outer hne hb hb' hbn hbn' habove⟩
  · intro h
    rcases h with ⟨hholds, hothers⟩
    refine ⟨hholds, ?_⟩
    intro d' hholds'
    by_cases hsame : d' = d
    · rw [hsame]
      exact mem_ancestors_self d.node
    · exact (mem_properAncestors_iff.mp (hothers d' hholds' hsame).mem_properAncestors).1

/-- The search for the owner of a node that covers text never fails.  It finds none if and only if
no declaration of the whole tree has a body that is the node or stands above it.  It finds a
declaration if and only if this is a declaration of the tree whose body is the node or stands above
it, and every other declaration with such a body stands strictly above the one found, with a body
that is the one found or stands above it. -/
theorem owner_is_innermost (hwidth : n.width ≠ 0) :
    ∃ found : Option Declaration, n.owner.value = .ok found ∧
      (found = none ↔
        ∀ d ∈ n.root.declarations, ∀ b, d.body.value = .ok (some b) → b.node ∉ n.ancestors) ∧
      ∀ d, found = some d ↔
        d ∈ n.root.declarations ∧
        (∃ b, d.body.value = .ok (some b) ∧ b.node ∈ n.ancestors) ∧
        ∀ d' ∈ n.root.declarations, d' ≠ d →
          ∀ b', d'.body.value = .ok (some b') → b'.node ∈ n.ancestors →
            d'.node ∈ d.node.properAncestors ∧ b'.node ∈ d.node.ancestors := by
  refine ⟨_, owner_value n, ?_, ?_⟩
  · rw [← Except.ok.injEq, ← owner_value, owner_eq_none_iff hwidth]
    constructor
    · intro hnone d _ b hb hbn
      exact hnone d (holds_iff.mpr ⟨b, hb, hbn⟩)
    · intro hnone d hholds
      obtain ⟨b, hb, hbn⟩ := holds_iff.mp hholds
      exact hnone d hholds.mem_declarations b hb hbn
  · intro d
    rw [← Except.ok.injEq, ← owner_value, owner_eq_some_iff_holds hwidth]
    constructor
    · intro h
      rcases h with ⟨hholds, hothers⟩
      refine ⟨hholds.mem_declarations, holds_iff.mp hholds, ?_⟩
      intro d' _ hne b' hb' hbn'
      have houter := hothers d' (holds_iff.mpr ⟨b', hb', hbn'⟩) hne
      refine ⟨houter.mem_properAncestors, ?_⟩
      obtain ⟨c, hc, hcd⟩ := holds_iff.mp houter
      rw [hb'] at hc
      rwa [Option.some.inj (Except.ok.inj hc)]
    · intro h
      rcases h with ⟨-, hbody, hothers⟩
      refine ⟨holds_iff.mpr hbody, ?_⟩
      intro d' hholds hne
      obtain ⟨b', hb', hbn'⟩ := holds_iff.mp hholds
      have houter := hothers d' hholds.mem_declarations hne b' hb' hbn'
      exact holds_iff.mpr ⟨b', hb', houter.2⟩

/-- A name in a lambda that is the initial value of a property.  The lambda owns the name.  The
property stands outside, and its body is the lambda itself. -/
theorem owner_is_innermost_in_property :
    let name := Tree.node .identifierName [.token .identifier "x"]
    let lambdaTree := Tree.node .simpleLambdaExpression [name]
    let root : Node := ⟨0, .propertyDeclaration, [.node .equalsValueClause [lambdaTree]], []⟩
    let inValue : List Frame := [⟨.equalsValueClause, [], []⟩, ⟨.propertyDeclaration, [], []⟩]
    let lambda : Declaration := ⟨⟨0, .simpleLambdaExpression, [name], inValue⟩, .lambda, rfl⟩
    let property : Declaration := ⟨root, .property, rfl⟩
    let x : Node := ⟨0, .identifierName, [.token .identifier "x"],
      ⟨.simpleLambdaExpression, [], []⟩ :: inValue⟩
    x.width ≠ 0 ∧ x.owner.value = .ok (some lambda) ∧
      property.body.value = .ok (some ⟨.expression, lambda.node⟩) ∧
      lambda.node ∈ x.ancestors ∧
      property.node ∈ lambda.node.properAncestors ∧ lambda.node ∈ lambda.node.ancestors := by
  intro name lambdaTree root inValue lambda property x
  have hwidth : x.width ≠ 0 := by decide
  have howner : x.owner.value = .ok (some lambda) := rfl
  have hbody : property.body.value = .ok (some ⟨.expression, lambda.node⟩) := rfl
  have hx : lambda.node ∈ x.ancestors := by decide +kernel
  obtain ⟨found, hfound, -, hinnermost⟩ := owner_is_innermost hwidth
  obtain rfl : found = some lambda := Except.ok.inj (hfound.symm.trans howner)
  obtain ⟨-, -, hothers⟩ := (hinnermost lambda).mp rfl
  have hdeclared : property ∈ x.root.declarations := by decide +kernel
  have houter := hothers property hdeclared (by decide) ⟨.expression, lambda.node⟩ hbody hx
  exact ⟨hwidth, howner, hbody, hx, houter.1, houter.2⟩

end Node

end LiveEdit
