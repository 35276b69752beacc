import LiveEdit.Proofs.Bodies
import LiveEdit.Proofs.Edit
import LiveEdit.Proofs.Readings
import LiveEdit.Proofs.SourceOrder
import Mathlib.Data.List.Forall2
import Mathlib.Data.List.Nodup
import Mathlib.Logic.ExistsUnique

/-!
# Trees that differ only in what an erasure takes away

If two trees become the same tree by an erasure, their nodes come in pairs: `Node.Corresponds`
relates the nodes that stand at the same place of what is left.

* `Corresponds.erase_eq` and `corresponds_of_erase_eq`: nodes correspond if the same is left of
  them.
* `existsUnique_right`, `existsUnique_left`: every node corresponds to one node.
* `Node.AnalysedAlike` lists what the analysis says alike about two nodes.
  `Corresponds.analysedAlike`: it says all this about corresponding nodes.
* `analysis_ignores_trivia`: white space and comments do not matter.
-/

namespace LiveEdit

/-- Optional values with one image are related. -/
theorem rel_of_map_eq {α β : Type} {f : α → β} {related : α → α → Prop} {x y : Option α}
    (hmap : x.map f = y.map f)
    (hrelated : ∀ a b, x = some a → y = some b → f a = f b → related a b) :
    Option.Rel related x y := by
  rcases none_or_some_of_map_eq hmap with ⟨rfl, rfl⟩ | ⟨a, b, rfl, rfl, hab⟩
  · exact .none
  · exact .some (hrelated a b rfl rfl hab)

/-- Lists with one image are related member by member. -/
theorem forall₂_of_map_eq {α β : Type} {f : α → β} {related : α → α → Prop} {l m : List α}
    (hmap : l.map f = m.map f) (hrelated : ∀ a ∈ l, ∀ b ∈ m, f a = f b → related a b) :
    List.Forall₂ related l m := by
  induction l generalizing m with
  | nil =>
    rw [List.map_eq_nil_iff.mp hmap.symm]
    exact .nil
  | cons a l ih =>
    obtain ⟨b, m, rfl, hab, htail⟩ := List.map_eq_cons_iff.mp hmap.symm
    refine .cons (hrelated a List.mem_cons_self b List.mem_cons_self hab.symm) ?_
    apply ih htail.symm
    intro c hc d hd
    exact hrelated c (List.mem_cons_of_mem a hc) d (List.mem_cons_of_mem b hd)

namespace Node

/-! ## Pairs of nodes -/

/-- A node of the left tree and a node of the right tree stand at one place of what is left. -/
structure Corresponds (e : Erasure) (left right a b : Node) : Prop where
  mem_left : a ∈ left.preorder
  mem_right : b ∈ right.preorder
  path_eq : (a.erase e).path = (b.erase e).path

theorem Corresponds.symm {e : Erasure} {left right a b : Node}
    (h : Corresponds e left right a b) : Corresponds e right left b a :=
  ⟨h.mem_right, h.mem_left, h.path_eq.symm⟩

theorem corresponds_of_erase_eq {e : Erasure} {left right a b : Node} (ha : a ∈ left.preorder)
    (hb : b ∈ right.preorder) (heq : a.erase e = b.erase e) : Corresponds e left right a b :=
  ⟨ha, hb, congrArg path heq⟩

/-- What is left of a node lies below what is left of the nodes above it. -/
theorem root_erase {e : Erasure} {root n : Node} (hn : n ∈ root.preorder) :
    (n.erase e).root = (root.erase e).root := by
  have hmem : n.erase e ∈ (root.erase e).preorder := by
    rw [preorder_erase]
    exact List.mem_map_of_mem hn
  exact (root_of_mem_ancestors (mem_preorder_iff_ancestors.mp hmem)).symm

section

variable {e : Erasure} {left right a b : Node}

/-- The same is left of corresponding nodes. -/
theorem Corresponds.erase_eq (h : Corresponds e left right a b)
    (hsame : left.erase e = right.erase e) : a.erase e = b.erase e := by
  apply eq_of_root_of_path _ h.path_eq
  rw [root_erase h.mem_left, root_erase h.mem_right, hsame]

/-- Every node of the left tree corresponds to one node of the right tree. -/
theorem existsUnique_right (hsame : left.erase e = right.erase e) (ha : a ∈ left.preorder) :
    ∃! b, Corresponds e left right a b := by
  have hmem : a.erase e ∈ (right.erase e).preorder := by
    rw [← hsame, preorder_erase]
    exact List.mem_map_of_mem ha
  rw [preorder_erase] at hmem
  obtain ⟨b, hb, hab⟩ := List.mem_map.mp hmem
  refine ⟨b, corresponds_of_erase_eq ha hb hab.symm, ?_⟩
  intro c hc
  have hnodup := nodup_path_preorder (right.erase e)
  rw [preorder_erase, List.map_map] at hnodup
  apply List.inj_on_of_nodup_map hnodup hc.mem_right hb
  exact hc.path_eq.symm.trans (congrArg path hab.symm)

/-- Every node of the right tree corresponds to one node of the left tree. -/
theorem existsUnique_left (hsame : left.erase e = right.erase e) (hb : b ∈ right.preorder) :
    ∃! a, Corresponds e left right a b := by
  obtain ⟨a, ha, hunique⟩ := existsUnique_right hsame.symm hb
  exact ⟨a, ha.symm, fun c hc => hunique c hc.symm⟩

theorem erase_eq_of_plant? {t u : Tree} {version version' : Nat}
    (hleft : t.plant? version = some left) (hright : u.plant? version' = some right)
    (hsame : t.erase? e = u.erase? e) : left.erase e = right.erase e := by
  rw [← tree_of_plant? hleft, ← tree_of_plant? hright, erase?_tree, erase?_tree,
    Option.some.injEq] at hsame
  obtain ⟨hkind, hchildren⟩ := Tree.node.inj hsame
  rw [erase, erase, frames_of_plant? hleft, frames_of_plant? hright]
  simp only [erase] at hkind hchildren
  rw [hkind, hchildren]

end

/-! ## What the analysis answers -/

/-- Two bodies have one form and corresponding nodes. -/
def BodiesCorrespond (e : Erasure) (left right : Node) (b c : Body) : Prop :=
  b.form = c.form ∧ Corresponds e left right b.node c.node

/-- The analysis answers alike for a node of the left tree and a node of the right tree.  Where it
answers with a node, the answers correspond. -/
structure AnalysedAlike (e : Erasure) (left right a b : Node) : Prop where
  /-- Both are declarations of one form, with corresponding bodies or without, or none is. -/
  declaration : Option.Rel
    (fun d d' => d.form = d'.form ∧ ∃ x y, d.body.value = .ok x ∧ d'.body.value = .ok y ∧
      Option.Rel (BodiesCorrespond e left right) x y) a.declaration? b.declaration?
  suspension : a.suspension? = b.suspension?
  points : List.Forall₂
    (fun p q => p.kind = q.kind ∧ Corresponds e left right p.node q.node)
    a.suspensionPoints.value b.suspensionPoints.value
  isGenerator : a.isGenerator = b.isGenerator
  isAsync : a.isAsync = b.isAsync
  isParameterlessConstructor : a.isParameterlessConstructor = b.isParameterlessConstructor
  hasBackingField : a.hasBackingField = b.hasBackingField
  getterBody : Option.Rel (BodiesCorrespond e left right) a.getterBody? b.getterBody?

section

variable {e : Erasure} {left right a b : Node}

theorem bodiesCorrespond_of_erase_eq {b c : Body} (hb : b.node ∈ left.preorder)
    (hc : c.node ∈ right.preorder) (heq : b.erase e = c.erase e) :
    BodiesCorrespond e left right b c := by
  obtain ⟨hform, hnode⟩ := Body.mk.inj heq
  exact ⟨hform, corresponds_of_erase_eq hb hc hnode⟩

theorem mem_preorder_of_ownBody? {root : Node} {d : Declaration} {b : Body}
    (hd : d.node ∈ root.preorder) (hb : d.ownBody? = some b) : b.node ∈ root.preorder := by
  rw [mem_preorder_iff_ancestors] at hd ⊢
  have habove := Declaration.mem_ancestors_of_ownBody? hb
  exact mem_ancestors_trans hd habove

theorem mem_preorder_of_mem_resumePoints {root n : Node} {p : SuspensionPoint}
    (hn : n ∈ root.preorder) (hp : p ∈ n.resumePoints) : p.node ∈ root.preorder := by
  rw [mem_preorder_iff_ancestors] at hn ⊢
  exact mem_ancestors_trans hn (mem_ancestors_of_mem_resumePoints hp)

theorem mem_preorder_of_blockOrArrow? {root n : Node} {b : Body} (hn : n ∈ root.preorder)
    (hb : n.blockOrArrow? = some b) : b.node ∈ root.preorder := by
  rcases blockOrArrow?_cases hb with ⟨c, hc, -, rfl⟩ | ⟨c, hc, -, x, hx, -, rfl⟩
  · exact mem_preorder_of_mem_childNodes hn hc
  · exact mem_preorder_of_mem_childNodes (mem_preorder_of_mem_childNodes hn hc) hx

theorem mem_preorder_of_getterBody? {root n : Node} {b : Body} (hn : n ∈ root.preorder)
    (hb : n.getterBody? = some b) : b.node ∈ root.preorder := by
  unfold getterBody? at hb
  split at hb
  · split at hb
    · rename_i clause hclause
      obtain ⟨x, hx, rfl⟩ := Option.map_eq_some_iff.mp hb
      exact mem_preorder_of_mem_childNodes
        (mem_preorder_of_mem_childNodes hn (mem_childNodes_of_childOf? hclause))
        (mem_childNodes_of_child? hx)
    · obtain ⟨getter, hgetter, hbody⟩ := Option.bind_eq_some_iff.mp hb
      obtain ⟨list, hlist, hfind⟩ := Option.bind_eq_some_iff.mp hgetter
      have haccessor : getter ∈ list.childNodes :=
        (List.mem_filter.mp (List.mem_of_find?_eq_some hfind)).1
      refine mem_preorder_of_blockOrArrow? ?_ hbody
      exact mem_preorder_of_mem_childNodes
        (mem_preorder_of_mem_childNodes hn (mem_childNodes_of_childOf? hlist)) haccessor
  · cases hb

/-- Declarations of which the same is left have corresponding bodies. -/
theorem rel_body_of_erase_eq {d d' : Declaration} (hd : d.node ∈ left.preorder)
    (hd' : d'.node ∈ right.preorder) (heq : d.erase e = d'.erase e) :
    ∃ x y, d.body.value = .ok x ∧ d'.body.value = .ok y ∧
      Option.Rel (BodiesCorrespond e left right) x y := by
  refine ⟨d.ownBody?, d'.ownBody?, by rw [d.body_eq], by rw [d'.body_eq], ?_⟩
  apply rel_of_map_eq (f := Body.erase e)
  · rw [← Declaration.ownBody?_erase, ← Declaration.ownBody?_erase, heq]
  · intro b c hb hc
    exact bodiesCorrespond_of_erase_eq (mem_preorder_of_ownBody? hd hb)
      (mem_preorder_of_ownBody? hd' hc)

/-- An answer that is the same about what is left is the same about corresponding nodes. -/
theorem Corresponds.answer_eq {α : Type} {answer : Node → α} (h : Corresponds e left right a b)
    (hsame : left.erase e = right.erase e) (hanswer : ∀ n : Node, answer (n.erase e) = answer n) :
    answer a = answer b := by
  rw [← hanswer a, ← hanswer b, h.erase_eq hsame]

/-- The analysis answers alike for corresponding nodes. -/
theorem Corresponds.analysedAlike (h : Corresponds e left right a b)
    (hsame : left.erase e = right.erase e) : AnalysedAlike e left right a b where
  declaration := by
    apply rel_of_map_eq (f := Declaration.erase e)
    · rw [← declaration?_erase, ← declaration?_erase, h.erase_eq hsame]
    · intro d d' hd hd' heq
      refine ⟨(Declaration.mk.inj heq).2, ?_⟩
      apply rel_body_of_erase_eq _ _ heq
      · rw [node_of_declaration? hd]
        exact h.mem_left
      · rw [node_of_declaration? hd']
        exact h.mem_right
  suspension := h.answer_eq hsame (suspension?_erase e)
  points := by
    apply forall₂_of_map_eq (f := SuspensionPoint.erase e)
    · show a.resumePoints.map _ = b.resumePoints.map _
      rw [← resumePoints_erase, ← resumePoints_erase, h.erase_eq hsame]
    · intro p hp q hq heq
      obtain ⟨hkind, hnode⟩ := SuspensionPoint.mk.inj heq
      exact ⟨hkind, corresponds_of_erase_eq (mem_preorder_of_mem_resumePoints h.mem_left hp)
        (mem_preorder_of_mem_resumePoints h.mem_right hq) hnode⟩
  isGenerator := h.answer_eq hsame (isGenerator_erase e)
  isAsync := h.answer_eq hsame (isAsync_erase e)
  isParameterlessConstructor := h.answer_eq hsame (isParameterlessConstructor_erase e)
  hasBackingField := h.answer_eq hsame (hasBackingField_erase e)
  getterBody := by
    apply rel_of_map_eq (f := Body.erase e)
    · rw [← getterBody?_erase, ← getterBody?_erase, h.erase_eq hsame]
    · intro b c hb hc
      exact bodiesCorrespond_of_erase_eq (mem_preorder_of_getterBody? h.mem_left hb)
        (mem_preorder_of_getterBody? h.mem_right hc)

end

/-! ## White space and comments -/

/-- Two trees that differ only in white space and comments have their other nodes and tokens in
common, and the analysis answers alike for each of these nodes. -/
theorem analysis_ignores_trivia {t u : Tree} {version version' : Nat} {left right : Node}
    (hleft : t.plant? version = some left) (hright : u.plant? version' = some right)
    (hsame : t.withoutTrivia = u.withoutTrivia) :
    (∀ a ∈ left.preorder, ∃! b, Corresponds .trivia left right a b) ∧
    (∀ b ∈ right.preorder, ∃! a, Corresponds .trivia left right a b) ∧
    ∀ a b, Corresponds .trivia left right a b →
      AnalysedAlike .trivia left right a b ∧
      (a.fieldOrPropertyModifiers?.map fun ts => ts.map Token.spelling) =
        b.fieldOrPropertyModifiers?.map fun ts => ts.map Token.spelling := by
  have herase := erase_eq_of_plant? hleft hright hsame
  refine ⟨?_, ?_, ?_⟩
  · intro a ha
    exact existsUnique_right herase ha
  · intro b hb
    exact existsUnique_left herase hb
  · intro a b h
    refine ⟨h.analysedAlike herase, ?_⟩
    rw [← fieldOrPropertyModifiers?_erase_trivia a, ← fieldOrPropertyModifiers?_erase_trivia b,
      h.erase_eq herase]

/-- Comments before and after `async` and white space around an `await` shift the children of a
method.  The method is still `async`, and its block still awaits. -/
theorem analysis_ignores_trivia_in_modifiers :
    let name := Tree.node .identifierName [.token .identifier "a"]
    let await := Tree.node .awaitExpression [.token .awaitKw "await", name]
    let comment := Tree.token .blockComment "/* */"
    let spaced :=
      Tree.node .awaitExpression [.token .awaitKw "await", .token .whitespace " ", name]
    let members := [Tree.node .modifiers [.token .asyncKw "async"], .node .block [await]]
    let members' := [comment, Tree.node .modifiers [comment, .token .asyncKw "async", comment],
      .node .block [.token .whitespace " ", spaced]]
    let left : Node := ⟨0, .methodDeclaration, members, []⟩
    let right : Node := ⟨0, .methodDeclaration, members', []⟩
    let block : Node := ⟨0, .block, [await], [⟨.methodDeclaration, members.take 1, []⟩]⟩
    let block' : Node :=
      ⟨0, .block, [.token .whitespace " ", spaced], [⟨.methodDeclaration, members'.take 2, []⟩]⟩
    (Tree.node .methodDeclaration members).withoutTrivia =
        (Tree.node .methodDeclaration members').withoutTrivia ∧
      right.isAsync = true ∧ Corresponds .trivia left right block block' ∧
      block'.suspensionPoints.value.map SuspensionPoint.kind = [.awaitExpression] := by
  intro name await comment spaced members members' left right block block'
  have hleft : (Tree.node .methodDeclaration members).plant? 0 = some left := rfl
  have hright : (Tree.node .methodDeclaration members').plant? 0 = some right := rfl
  have hsame : (Tree.node .methodDeclaration members).withoutTrivia =
      (Tree.node .methodDeclaration members').withoutTrivia := by decide +kernel
  obtain ⟨-, -, halike⟩ := analysis_ignores_trivia hleft hright hsame
  have hroots : Corresponds .trivia left right left right :=
    ⟨mem_preorder_iff.mpr ⟨[], rfl⟩, mem_preorder_iff.mpr ⟨[], rfl⟩, rfl⟩
  have hblocks : Corresponds .trivia left right block block' :=
    ⟨mem_preorder_iff.mpr ⟨[1], rfl⟩, mem_preorder_iff.mpr ⟨[2], rfl⟩, by decide +kernel⟩
  have hasync : left.isAsync = true := by decide +kernel
  have hscan : block.suspensionPoints.value.map SuspensionPoint.kind = [.awaitExpression] := by
    decide +kernel
  have hkinds : List.Forall₂ (· = ·) (block.suspensionPoints.value.map SuspensionPoint.kind)
      (block'.suspensionPoints.value.map SuspensionPoint.kind) :=
    List.forall₂_map_left_iff.mpr (List.forall₂_map_right_iff.mpr
      ((halike block block' hblocks).1.points.imp fun _ _ h => h.1))
  rw [List.forall₂_eq_eq_eq, hscan] at hkinds
  refine ⟨hsame, ?_, hblocks, ?_⟩
  · rw [← (halike left right hroots).1.isAsync, hasync]
  · exact hkinds.symm

end Node

end LiveEdit
