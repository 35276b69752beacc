import LiveEdit.Proofs.Bodies
import LiveEdit.Proofs.OwnCode

/-!
# Suspension points and owners

Two ways lead from a suspension point to the declaration whose state machine it belongs to: down
from the body of the declaration, through all code outside closures, or up from the point to the
innermost body around it.  `mem_suspensionPoints_iff_owner` says that they agree in every tree in
which bodies nest as `OnlyClosuresNest` and `PointsInClosureBodies` say.
-/

namespace LiveEdit.Node

/-! ## Trees in which bodies nest through closures -/

/-- A declaration with a body that stands strictly inside another body is a closure. -/
def OnlyClosuresNest (root : Node) : Prop :=
  ∀ outer ∈ root.declarations, ∀ inner ∈ root.declarations, ∀ b c,
    outer.body.value = .ok (some b) → inner.body.value = .ok (some c) →
    b.node ∈ inner.node.properAncestors → inner.isClosure = true

/-- A node at which a machine can resume lies in the closure body of every closure above it. -/
def PointsInClosureBodies (root : Node) : Prop :=
  ∀ n ∈ root.preorder, n.suspension?.any SuspensionKind.isResumable = true →
    ∀ c ∈ root.preorder, c.isClosure = true → c ∈ n.properAncestors →
      ∃ b, c.closureBody? = some b ∧ b ∈ n.ancestors

theorem mem_declarations_iff {root : Node} {d : Declaration} :
    d ∈ root.declarations ↔ root ∈ d.node.ancestors := by
  rw [declarations, Declaration.mem_filterMap_declaration?_iff, mem_preorder_iff_ancestors]

theorem body_value_eq_some_iff {d : Declaration} {b : Body} :
    d.body.value = .ok (some b) ↔ d.ownBody? = some b := by
  rw [Declaration.body_eq, Except.ok.injEq]

/-- A declaration that is a block or an expression is a closure. -/
theorem isClosure_of_kind {d : Declaration}
    (hkind : d.node.kind = .block ∨ d.node.kind.isExpression = true) : d.isClosure = true := by
  have hform := d.form_eq
  rw [← Declaration.isClosure_node, isClosure]
  revert hkind hform
  cases d.node.kind <;> simp [Declaration.Form.ofKind?, Kind.isExpression, Kind.isLambda,
    Kind.isAccessor]

/-! ## Down and up -/

/-- A declaration that has a body and stands at or below a body is a closure.  If it is the body, then
because it is a block or an expression, and if it is below, then because bodies nest through
closures. -/
theorem isClosure_of_below_body {root : Node} (hnest : OnlyClosuresNest root)
    {d d' : Declaration} (hd : d ∈ root.declarations) {b b' : Body} (hb : d.ownBody? = some b)
    (hb' : d'.ownBody? = some b') (hbelow : b.node ∈ d'.node.ancestors) :
    d'.isClosure = true := by
  by_cases hbody : b.node = d'.node
  · have hkind := (Declaration.bodyPlace_of_ownBody? hb).kind
    rw [hbody] at hkind
    exact isClosure_of_kind hkind
  · have habove := Declaration.mem_ancestors_of_ownBody? hb
    have hd' : d' ∈ root.declarations := mem_declarations_iff.mpr
      (mem_ancestors_trans (mem_declarations_iff.mp hd) (mem_ancestors_trans habove hbelow))
    exact hnest d hd d' hd' b b' (body_value_eq_some_iff.mpr hb) (body_value_eq_some_iff.mpr hb')
      (mem_properAncestors_iff.mpr ⟨hbelow, hbody⟩)

/-- What the scan of a body reaches is owned by the declaration of the body.  Another declaration that
holds it and stands at or below the body would be a closure on the way, which the scan does not
enter, and strictly between a declaration and its body no declaration has a body. -/
theorem owner_of_mem_ownCode {root n : Node} (hnest : OnlyClosuresNest root)
    (hwidth : n.width ≠ 0) {d : Declaration} (hd : d ∈ root.declarations) {b : Body}
    (hb : d.ownBody? = some b) (hmem : n ∈ b.node.ownCode) : n.owner.value = .ok (some d) := by
  obtain ⟨hbn, hopen⟩ := mem_ownCode_iff.mp hmem
  have hdb := Declaration.mem_properAncestors_of_ownBody? hb
  have hdn : d.node ∈ n.ancestors :=
    mem_ancestors_trans (mem_properAncestors_iff.mp hdb).1 hbn
  rw [owner_eq_some_iff hwidth]
  refine ⟨⟨b, hb, hbn⟩, ?_⟩
  intro d' hholds
  have habove := hholds.mem_properAncestors
  have hdn' := (mem_properAncestors_iff.mp habove).1
  rcases mem_ancestors_total hdn' hdn with hle | hle
  · exact hle
  by_cases hsame : d.node = d'.node
  · rw [hsame]
    exact mem_ancestors_self d'.node
  exfalso
  obtain ⟨b', hb', -⟩ := hholds
  have hnotBelow : b.node ∉ d'.node.ancestors := by
    intro hbelow
    have hclosure := isClosure_of_below_body hnest hd hb hb' hbelow
    have hentered := hopen d'.node habove hbelow
    rw [Declaration.isClosure_node, hclosure] at hentered
    cases hentered
  have hne : d'.node ≠ b.node := fun h => hnotBelow (h ▸ mem_ancestors_self d'.node)
  have hbetween := (mem_ancestors_total hbn hdn').resolve_left hnotBelow
  have hnone := Declaration.ownBody?_of_between hb (mem_properAncestors_iff.mpr ⟨hle, hsame⟩)
    (mem_properAncestors_iff.mpr ⟨hbetween, hne⟩)
  rw [hnone] at hb'
  cases hb'

/-- What a declaration owns is reached by the scan of its body.  A closure on the way would hold it and
lie below its owner, which is the innermost declaration that holds it. -/
theorem mem_ownCode_of_owner {root n : Node} (hpoints : PointsInClosureBodies root)
    (hwidth : n.width ≠ 0) (hresumes : n.suspension?.any SuspensionKind.isResumable = true)
    {d : Declaration} (hd : d ∈ root.declarations) {b : Body} (hb : d.ownBody? = some b)
    (howner : n.owner.value = .ok (some d)) : n ∈ b.node.ownCode := by
  obtain ⟨⟨b', hb', hbn⟩, hinnermost⟩ := (owner_eq_some_iff hwidth).mp howner
  obtain rfl : b = b' := Option.some.inj (hb.symm.trans hb')
  have hdb := Declaration.mem_properAncestors_of_ownBody? hb
  refine mem_ownCode_iff.mpr ⟨hbn, ?_⟩
  intro c hcn hbc
  refine Bool.eq_false_iff.mpr ?_
  intro hclosure
  have hrootc : root ∈ c.ancestors :=
    mem_ancestors_trans (mem_declarations_iff.mp hd)
      (mem_ancestors_trans (mem_properAncestors_iff.mp hdb).1 hbc)
  have hrootn : root ∈ n.ancestors :=
    mem_ancestors_trans hrootc (mem_properAncestors_iff.mp hcn).1
  obtain ⟨body, hbody, hbodyn⟩ := hpoints n (mem_preorder_iff_ancestors.mpr hrootn) hresumes c
    (mem_preorder_iff_ancestors.mpr hrootc) hclosure hcn
  obtain ⟨d', b', rfl, -, hb', rfl⟩ := exists_ownBody?_of_closureBody? hclosure hbody
  have habove := hinnermost d' ⟨b', hb', hbodyn⟩
  have hcycle : b.node ∈ d.node.ancestors := mem_ancestors_trans hbc habove
  obtain ⟨hle, hne⟩ := mem_properAncestors_iff.mp hdb
  exact hne (mem_ancestors_antisymm hle hcycle)

/-! ## One owner for every point -/

/-- In a tree in which bodies nest through closures, take a node that covers text and at which a
machine can resume.  The scan of a body reports the node if and only if the declaration of the
body owns the node.  So exactly one declaration reports a node that lies in some body, and none
reports any other node. -/
theorem mem_suspensionPoints_iff_owner {root n : Node} {k : SuspensionKind}
    (hnest : OnlyClosuresNest root) (hpoints : PointsInClosureBodies root)
    (hwidth : n.width ≠ 0) (hkind : n.suspension? = some k) (hresumes : k.isResumable = true) :
    (∀ d ∈ root.declarations, ∀ b, d.body.value = .ok (some b) →
      (⟨k, n⟩ ∈ b.node.suspensionPoints.value ↔ n.owner.value = .ok (some d))) ∧
    ((∃ d ∈ root.declarations, ∃ b, d.body.value = .ok (some b) ∧ b.node ∈ n.ancestors) →
      ∃ d ∈ root.declarations,
        (∃ b, d.body.value = .ok (some b) ∧ ⟨k, n⟩ ∈ b.node.suspensionPoints.value) ∧
        ∀ d' ∈ root.declarations, ∀ b, d'.body.value = .ok (some b) →
          ⟨k, n⟩ ∈ b.node.suspensionPoints.value → d' = d) ∧
    ((¬ ∃ d ∈ root.declarations, ∃ b, d.body.value = .ok (some b) ∧ b.node ∈ n.ancestors) →
      ∀ d ∈ root.declarations, ∀ b, d.body.value = .ok (some b) →
        ⟨k, n⟩ ∉ b.node.suspensionPoints.value) := by
  have hany : n.suspension?.any SuspensionKind.isResumable = true := by
    rw [hkind, Option.any_some, hresumes]
  have hiff : ∀ d ∈ root.declarations, ∀ b, d.body.value = .ok (some b) →
      (⟨k, n⟩ ∈ b.node.suspensionPoints.value ↔ n.owner.value = .ok (some d)) := by
    intro d hd b hb
    rw [body_value_eq_some_iff] at hb
    show ⟨k, n⟩ ∈ b.node.resumePoints ↔ _
    rw [mem_resumePoints_iff]
    constructor
    · intro h
      rcases h with ⟨hmem, -⟩
      exact owner_of_mem_ownCode hnest hwidth hd hb hmem
    · intro howner
      exact ⟨mem_ownCode_of_owner hpoints hwidth hany hd hb howner, hkind, hresumes⟩
  refine ⟨hiff, ?_, ?_⟩
  · intro h
    rcases h with ⟨d₀, hd₀, b₀, hb₀, hn₀⟩
    have hholds : d₀.Holds n := ⟨b₀, body_value_eq_some_iff.mp hb₀, hn₀⟩
    obtain ⟨d, howner⟩ := exists_owner hwidth hholds
    obtain ⟨⟨b, hb, -⟩, hinnermost⟩ := (owner_eq_some_iff hwidth).mp howner
    have hd : d ∈ root.declarations := mem_declarations_iff.mpr
      (mem_ancestors_trans (mem_declarations_iff.mp hd₀) (hinnermost d₀ hholds))
    have hvalue := body_value_eq_some_iff.mpr hb
    refine ⟨d, hd, ⟨b, hvalue, (hiff d hd b hvalue).mpr howner⟩, ?_⟩
    intro d' hd' b' hb' hmem
    have howner' := (hiff d' hd' b' hb').mp hmem
    rw [howner] at howner'
    exact (Option.some.inj (Except.ok.inj howner')).symm
  · intro hnone d hd b hb hmem
    have hreached := (mem_resumePoints_iff.mp hmem).1
    exact hnone ⟨d, hd, b, hb, (mem_ownCode_iff.mp hreached).1⟩

/-- An `await` in a lambda in a method: the lambda reports it, and the method does not. -/
theorem mem_suspensionPoints_iff_owner_in_lambda :
    let keyword := Tree.token .awaitKw "await"
    let awaitTree := Tree.node .awaitExpression [keyword]
    let lambdaTree := Tree.node .parenthesizedLambdaExpression [awaitTree]
    let around : List Frame :=
      [⟨.parenthesizedLambdaExpression, [], []⟩, ⟨.block, [], []⟩, ⟨.methodDeclaration, [], []⟩]
    let root : Node := ⟨0, .methodDeclaration, [.node .block [lambdaTree]], []⟩
    let block : Node := ⟨0, .block, [lambdaTree], around.drop 2⟩
    let lambda : Node := ⟨0, .parenthesizedLambdaExpression, [awaitTree], around.drop 1⟩
    let point : Node := ⟨0, .awaitExpression, [keyword], around⟩
    OnlyClosuresNest root ∧ PointsInClosureBodies root ∧
      ⟨.awaitExpression, point⟩ ∈ point.suspensionPoints.value ∧
      point.owner.value = .ok (some ⟨lambda, .lambda, rfl⟩) ∧
      ⟨.awaitExpression, point⟩ ∉ block.suspensionPoints.value := by
  intro keyword awaitTree lambdaTree around root block lambda point
  have hnodes : root.preorder = [root, block, lambda, point] := by decide +kernel
  have hdeclarations : root.declarations = [⟨root, .method, rfl⟩, ⟨lambda, .lambda, rfl⟩] := by
    decide +kernel
  have hnest : OnlyClosuresNest root := by
    intro outer _ inner hinner b c _ _ habove
    rw [hdeclarations] at hinner
    simp only [List.mem_cons, List.not_mem_nil, or_false] at hinner
    rcases hinner with rfl | rfl
    · exact absurd habove List.not_mem_nil
    · rfl
  have hpoints : PointsInClosureBodies root := by
    intro n hn hresumes c hc hclosure habove
    rw [hnodes] at hn hc
    simp only [List.mem_cons, List.not_mem_nil, or_false] at hn hc
    rcases hc with rfl | rfl | rfl | rfl <;> try exact absurd hclosure (by decide)
    refine ⟨point, by decide +kernel, ?_⟩
    rcases hn with rfl | rfl | rfl | rfl
    · exact absurd hresumes (by decide)
    · exact absurd hresumes (by decide)
    · exact absurd hresumes (by decide)
    · exact mem_ancestors_self _
  obtain ⟨hiff, -⟩ := mem_suspensionPoints_iff_owner (k := .awaitExpression) (n := point)
    hnest hpoints (by decide) rfl rfl
  rw [hdeclarations] at hiff
  have hscan : ⟨.awaitExpression, point⟩ ∈ point.suspensionPoints.value := by decide +kernel
  have howner := (hiff ⟨lambda, .lambda, rfl⟩ (by simp) ⟨.expression, point⟩ rfl).mp hscan
  refine ⟨hnest, hpoints, hscan, howner, ?_⟩
  intro hmem
  have howner' := (hiff ⟨root, .method, rfl⟩ (by simp) ⟨.block, block⟩ rfl).mp hmem
  rw [howner] at howner'
  exact absurd (Option.some.inj (Except.ok.inj howner')) (by decide)

end LiveEdit.Node
