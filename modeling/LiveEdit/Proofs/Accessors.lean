import LiveEdit.Member
import LiveEdit.Proofs.Bodies

/-!
# The code of properties

What runs when a property or an indexer is read is looked up in three ways: as the body of a
declaration, by `Node.getterBody?`, and by `Node.hasBackingField`, which asks for an accessor
without code.  The three agree.

* `ResolvesTo` is the body that a node has as a declaration.  `resolvesTo_arrow_iff` and
  `resolvesTo_accessor_iff` say what it is for an arrow clause and for an accessor.
* `resolvesTo_getterBody?_of_arrow` and `resolvesTo_getterBody?_of_getter?`: what is read is what
  the arrow clause, or else the first `get` accessor, resolves to.
* `isAutoImplemented_iff`: an accessor is taken for one without code if it resolves to nothing,
  provided that its arrow does not stand without expression.
-/

namespace LiveEdit

namespace Declaration

theorem Form.ofKind?_of_isAccessor {k : Kind} (hk : k.isAccessor = true) :
    ofKind? k = some .accessor := by
  cases k <;> cases hk <;> rfl

/-- The arrow clause of a property or an indexer owns the expression in it. -/
theorem ownBody?_of_member_arrow {d : Declaration} {n : Node} (hclause : d.node ∈ n.childNodes)
    (hform : d.form = .arrowClause)
    (hmember : n.kind = .propertyDeclaration ∨ n.kind = .indexerDeclaration) :
    d.ownBody? = d.node.expression?.map (Body.mk .expression) := by
  have howned : d.node.parent?.any (fun p =>
      p.kind == .propertyDeclaration || p.kind == .indexerDeclaration) = true := by
    simpa [Node.parent?_of_mem_childNodes hclause] using hmember
  simp only [ownBody?, hform]
  rw [if_pos howned]

end Declaration

namespace Node

/-! ## What arrow clauses and accessors resolve to -/

/-- A node is a declaration, and looking up its body finds `found`. -/
def ResolvesTo (n : Node) (found : Option Body) : Prop :=
  ∃ d, n.declaration? = some d ∧ d.body.value = .ok found

theorem resolvesTo_iff {n : Node} {form : Declaration.Form}
    (hform : Declaration.Form.ofKind? n.kind = some form) (found : Option Body) :
    n.ResolvesTo found ↔ (Declaration.mk n form hform).ownBody? = found := by
  have hd : n.declaration? = some ⟨n, form, hform⟩ :=
    declaration?_node (Declaration.mk n form hform)
  rw [ResolvesTo, hd]
  simp [Declaration.body_eq]

section

variable {n : Node} (hmember : n.kind = .propertyDeclaration ∨ n.kind = .indexerDeclaration)

include hmember

theorem resolvesTo_arrow_iff {a : Node} (ha : n.arrow? = some a) (found : Option Body) :
    a.ResolvesTo found ↔ a.expression?.map (Body.mk .expression) = found := by
  have hform : Declaration.Form.ofKind? a.kind = some .arrowClause := by
    rw [kind_of_childOf? ha]
    rfl
  have hclause : a ∈ n.childNodes := mem_childNodes_of_childOf? ha
  rw [resolvesTo_iff hform,
    Declaration.ownBody?_of_member_arrow (d := ⟨a, .arrowClause, hform⟩) hclause rfl hmember]

/-- What is read through an arrow clause is what the clause resolves to. -/
theorem resolvesTo_getterBody?_of_arrow {a : Node} (ha : n.arrow? = some a) :
    a.ResolvesTo n.getterBody? := by
  rw [resolvesTo_arrow_iff hmember ha, getterBody?, if_pos (by simpa using hmember), ha]

theorem getterBody?_of_no_arrow (harrow : n.arrow? = none) :
    n.getterBody? = n.getter?.bind blockOrArrow? := by
  rw [getterBody?, if_pos (by simpa using hmember), harrow]

end

/-- An accessor resolves to its block, or else to the expression after its arrow. -/
theorem resolvesTo_accessor_iff {a : Node} (haccessor : a.kind.isAccessor = true)
    (found : Option Body) : a.ResolvesTo found ↔ a.blockOrArrow? = found := by
  rw [resolvesTo_iff (Declaration.Form.ofKind?_of_isAccessor haccessor)]
  rfl

theorem getter?_eq_some_iff {n g : Node} :
    n.getter? = some g ↔ ∃ l, n.accessorList? = some l ∧
      l.accessors.find? (fun a => a.kind == .getAccessorDeclaration) = some g :=
  Option.bind_eq_some_iff

theorem getter?_eq_none_iff {n : Node} :
    n.getter? = none ↔ ∀ l, n.accessorList? = some l →
      ∀ a ∈ l.accessors, a.kind ≠ .getAccessorDeclaration := by
  rw [getter?, Option.bind_eq_none_iff]
  simp only [List.find?_eq_none, beq_iff_eq, ne_eq]

/-- What is read through a `get` accessor is what the accessor resolves to. -/
theorem resolvesTo_getterBody?_of_getter? {n g : Node}
    (hmember : n.kind = .propertyDeclaration ∨ n.kind = .indexerDeclaration)
    (harrow : n.arrow? = none) (hg : n.getter? = some g) : g.ResolvesTo n.getterBody? := by
  obtain ⟨l, -, hfound⟩ := getter?_eq_some_iff.mp hg
  have hkind : g.kind = .getAccessorDeclaration := by simpa using List.find?_some hfound
  rw [resolvesTo_accessor_iff (by rw [hkind]; rfl), getterBody?_of_no_arrow hmember harrow, hg,
    Option.bind_some]

/-! ## Accessors without code -/

/-- An accessor has neither block nor arrow if and only if it has no code, provided that its first
arrow does not stand without expression. -/
theorem isAutoImplemented_iff {a : Node}
    (harrow : ∀ c, a.arrow? = some c → c.expression?.isSome = true) :
    a.isAutoImplemented = true ↔ a.blockOrArrow? = none := by
  have hcode : a.arrow? = none ↔ a.arrowExpression? = none := by
    rw [arrowExpression?, Option.bind_eq_none_iff]
    constructor
    · intro hnone c hc
      rw [hnone] at hc
      cases hc
    · intro hempty
      refine Option.eq_none_iff_forall_ne_some.mpr ?_
      intro c hc
      have hsome := harrow c hc
      rw [hempty c hc] at hsome
      cases hsome
  rw [isAutoImplemented, Bool.and_eq_true, Option.isNone_iff_eq_none, Option.isNone_iff_eq_none,
    hcode, blockOrArrow?, Option.or_eq_none_iff, Option.map_eq_none_iff, Option.map_eq_none_iff]

theorem hasModifier_eq_false_iff {n : Node} {k : Kind} :
    n.hasModifier k = false ↔ ∀ m, n.modifiers? = some m → m.token? k = none := by
  rw [hasModifier, Option.any_eq_false]
  simp only [Option.isSome_eq_false_iff, Option.isNone_iff_eq_none]

theorem hasBackingField_iff {n : Node} :
    n.hasBackingField = true ↔
      (n.hasModifier .abstractKw = false ∧ n.hasModifier .externKw = false) ∧ n.arrow? = none ∧
        ∃ l, n.accessorList? = some l ∧ ∃ a ∈ l.accessors, a.isAutoImplemented = true := by
  rw [hasBackingField, Bool.and_eq_true, Bool.and_eq_true, Bool.not_eq_true', Bool.or_eq_false_iff,
    Option.isNone_iff_eq_none, Option.any_eq_true, and_assoc]
  simp only [List.any_eq_true]

/-! ## The three lookups agree -/

/-- Reading a property or an indexer runs what its first arrow clause resolves to, or, without such
a clause, what the first `get` accessor of its first accessor list resolves to, and nothing if
there is no such accessor.

If in the accessors of a property no arrow stands without expression, then the property has a field
behind it if and only if its first list of modifiers holds neither `abstract` nor `extern`, it has
no arrow clause, and some accessor of its first accessor list resolves to nothing. -/
theorem property_code_agrees (n : Node) :
    (n.kind = .propertyDeclaration ∨ n.kind = .indexerDeclaration →
      (∀ a, n.arrow? = some a → a.ResolvesTo n.getterBody?) ∧
      (n.arrow? = none →
        (∀ l g, n.accessorList? = some l →
          l.accessors.find? (fun a => a.kind == .getAccessorDeclaration) = some g →
            g.ResolvesTo n.getterBody?) ∧
        ((∀ l, n.accessorList? = some l →
          ∀ a ∈ l.accessors, a.kind ≠ .getAccessorDeclaration) → n.getterBody? = none))) ∧
    (n.kind = .propertyDeclaration →
      (∀ l, n.accessorList? = some l → ∀ a ∈ l.accessors,
        ∀ c ∈ a.childrenOf (· == .arrowExpressionClause), c.expression?.isSome = true) →
      (n.hasBackingField = true ↔
        (∀ m, n.modifiers? = some m →
          m.token? .abstractKw = none ∧ m.token? .externKw = none) ∧
        n.arrow? = none ∧
        ∃ l, n.accessorList? = some l ∧ ∃ a ∈ l.accessors, a.ResolvesTo none)) := by
  constructor
  · intro hmember
    refine ⟨fun a ha => resolvesTo_getterBody?_of_arrow hmember ha, ?_⟩
    intro harrow
    constructor
    · intro l g hl hg
      exact resolvesTo_getterBody?_of_getter? hmember harrow (getter?_eq_some_iff.mpr ⟨l, hl, hg⟩)
    · intro hnone
      rw [getterBody?_of_no_arrow hmember harrow, getter?_eq_none_iff.mpr hnone, Option.bind_none]
  · intro _ harrows
    rw [hasBackingField_iff, hasModifier_eq_false_iff, hasModifier_eq_false_iff]
    refine and_congr ?_ (and_congr_right fun _ => exists_congr fun l => and_congr_right fun hl => ?_)
    · simp only [forall_and]
    refine exists_congr fun a => and_congr_right fun ha => ?_
    have haccessor : a.kind.isAccessor = true := (List.mem_filter.mp ha).2
    rw [resolvesTo_accessor_iff haccessor]
    apply isAutoImplemented_iff
    intro c hc
    refine harrows l hl a ha c (List.mem_filter.mpr ⟨mem_childNodes_of_childOf? hc, ?_⟩)
    rw [kind_of_childOf? hc]
    rfl

/-- A property with a `get` accessor with an arrow, one with a block, and a `set` accessor without
code.  It is read through the first of them, and the last one needs a field. -/
theorem property_code_agrees_of_mixed_accessors :
    let name := Tree.node .identifierName [.token .identifier "x"]
    let arrow := Tree.node .arrowExpressionClause [.token .fatArrow "=>", name]
    let getArrow := Tree.node .getAccessorDeclaration [.token .getKw "get", arrow]
    let getBlock := Tree.node .getAccessorDeclaration [.token .getKw "get", .node .block []]
    let setNone := Tree.node .setAccessorDeclaration [.token .setKw "set"]
    let modifiers := Tree.node .modifiers [.token .staticKw "static"]
    let list := Tree.node .accessorList [getArrow, setNone, getBlock]
    let property : Node := ⟨0, .propertyDeclaration, [modifiers, list], []⟩
    let inList (before after : List Tree) : List Frame :=
      [⟨.accessorList, before, after⟩, ⟨.propertyDeclaration, [modifiers], []⟩]
    let accessors : Node := ⟨0, .accessorList, [getArrow, setNone, getBlock],
      [⟨.propertyDeclaration, [modifiers], []⟩]⟩
    let getter : Node := ⟨0, .getAccessorDeclaration, [.token .getKw "get", arrow],
      inList [] [setNone, getBlock]⟩
    let setter : Node := ⟨0, .setAccessorDeclaration, [.token .setKw "set"],
      inList [getArrow] [getBlock]⟩
    property.arrow? = none ∧ property.accessorList? = some accessors ∧
      accessors.accessors.find? (fun a => a.kind == .getAccessorDeclaration) = some getter ∧
      (∀ l, property.accessorList? = some l → ∀ a ∈ l.accessors,
        ∀ c ∈ a.childrenOf (· == .arrowExpressionClause), c.expression?.isSome = true) ∧
      getter.ResolvesTo property.getterBody? ∧
      property.getterBody?.map (fun b => b.node.kind) = some .identifierName ∧
      setter ∈ accessors.accessors ∧ setter.ResolvesTo none ∧ property.hasBackingField = true := by
  intro name arrow getArrow getBlock setNone modifiers list property inList accessors getter setter
  have harrow : property.arrow? = none := by decide +kernel
  have hlist : property.accessorList? = some accessors := by decide +kernel
  have hfirst : accessors.accessors.find? (fun a => a.kind == .getAccessorDeclaration) =
      some getter := by decide +kernel
  have hexpressions : ∀ l, property.accessorList? = some l → ∀ a ∈ l.accessors,
      ∀ c ∈ a.childrenOf (· == .arrowExpressionClause), c.expression?.isSome = true := by
    intro l hl
    obtain rfl := Option.some.inj (hlist.symm.trans hl)
    decide +kernel
  have hsetter : setter ∈ accessors.accessors := by decide +kernel
  have hnone : setter.ResolvesTo none := ⟨⟨setter, .accessor, rfl⟩, rfl, rfl⟩
  have hmodifiers : ∀ m, property.modifiers? = some m →
      m.token? .abstractKw = none ∧ m.token? .externKw = none := by
    intro m hm
    obtain rfl : (⟨0, .modifiers, [.token .staticKw "static"],
      [⟨.propertyDeclaration, [], [list]⟩]⟩ : Node) = m := Option.some.inj hm
    decide +kernel
  obtain ⟨hread, hbacked⟩ := property_code_agrees property
  obtain ⟨-, hlists⟩ := hread (.inl rfl)
  exact ⟨harrow, hlist, hfirst, hexpressions, (hlists harrow).1 _ _ hlist hfirst,
    by decide +kernel, hsetter, hnone,
    (hbacked rfl hexpressions).mpr ⟨hmodifiers, harrow, accessors, hlist, setter, hsetter, hnone⟩⟩

end Node

end LiveEdit
