import LiveEdit.Proofs.Correspondence

/-!
# Respelling tokens

Two trees that become the same tree when every token loses its text have the same nodes at the same
paths.  Every offset may differ, and a node may gain or lose all of its text.

* `Respelled` relates the roots of such trees.  `Respelled.agreeOutside`: they agree at every path.
* `Carried` relates a node to the right node at its path, where a lookup of it arrives.
  `Respelled.carried`: corresponding nodes are carried.
* `analysis_survives_respelling`: the declarations of one tree, their bodies and their suspension
  points are carried to those of the other.
-/

namespace LiveEdit.Node

/-! ## Agreement -/

/-- The roots of two trees that differ in the texts of their tokens only. -/
structure Respelled (left right : Node) : Prop where
  left_root : left.frames = []
  right_root : right.frames = []
  erase_eq : left.erase .texts = right.erase .texts

section

variable {left right a b : Node}

theorem Respelled.symm (h : Respelled left right) : Respelled right left :=
  ⟨h.right_root, h.left_root, h.erase_eq.symm⟩

/-- Corresponding nodes stand at one path. -/
theorem path_eq_of_corresponds (hab : Corresponds .texts left right a b) : b.path = a.path := by
  rw [← path_erase Erasure.keepsAll_texts b, ← hab.path_eq, path_erase Erasure.keepsAll_texts a]

theorem Respelled.nodeAt?_path (h : Respelled left right)
    (hab : Corresponds .texts left right a b) : right.nodeAt? a.path = some b :=
  (nodeAt?_eq_some_iff h.right_root).mpr ⟨hab.mem_right, path_eq_of_corresponds hab⟩

/-- The left tree leads to a node wherever the right tree does. -/
theorem Respelled.nodeAt?_eq_none (h : Respelled left right) {p : Path}
    (hleft : left.nodeAt? p = none) : right.nodeAt? p = none := by
  cases hb : right.nodeAt? p with
  | none => rfl
  | some b =>
    obtain ⟨hmem, rfl⟩ := (nodeAt?_eq_some_iff h.right_root).mp hb
    obtain ⟨a, hba, -⟩ := existsUnique_right h.symm.erase_eq hmem
    rw [h.symm.nodeAt?_path hba] at hleft
    cases hleft

/-- Respelled trees agree at every path. -/
theorem Respelled.agreeOutside (h : Respelled left right) :
    AgreeOutside (fun _ => False) left right := by
  intro p _
  cases ha : left.nodeAt? p with
  | none => rw [h.nodeAt?_eq_none ha]
  | some a =>
    obtain ⟨hmem, rfl⟩ := (nodeAt?_eq_some_iff h.left_root).mp ha
    obtain ⟨b, hab, -⟩ := existsUnique_right h.erase_eq hmem
    rw [h.nodeAt?_path hab, Option.map_some, Option.map_some,
      ← outline_erase Erasure.keepsAll_texts a, hab.erase_eq h.erase_eq,
      outline_erase Erasure.keepsAll_texts b]

/-! ## What is carried over -/

/-- The node of the right tree at the path of a node of the left tree.  A lookup of a node with
text arrives there. -/
structure Carried (left right a b : Node) : Prop where
  nodeAt?_path : right.nodeAt? a.path = some b
  path_eq : b.path = a.path
  partner : a.width ≠ 0 → left.partner right a = .ok (some b)

/-- Two bodies of one form at one path, with the same suspension points. -/
structure BodyCarried (left right : Node) (b c : Body) : Prop where
  form : b.form = c.form
  node : Carried left right b.node c.node
  isGenerator : b.node.isGenerator = c.node.isGenerator
  points : List.Forall₂ (fun p q => p.kind = q.kind ∧ Carried left right p.node q.node)
    b.node.suspensionPoints.value c.node.suspensionPoints.value

theorem Respelled.carried (h : Respelled left right) (hab : Corresponds .texts left right a b) :
    Carried left right a b where
  nodeAt?_path := h.nodeAt?_path hab
  path_eq := path_eq_of_corresponds hab
  partner := by
    intro hwidth
    have ha : left.nodeAt? a.path = some a :=
      (nodeAt?_eq_some_iff h.left_root).mpr ⟨hab.mem_left, rfl⟩
    exact h.agreeOutside.partner_eq (fun _ _ hp _ => hp) not_false ha (h.nodeAt?_path hab) hwidth

theorem Respelled.bodyCarried (h : Respelled left right) {b c : Body}
    (hbc : BodiesCorrespond .texts left right b c) : BodyCarried left right b c where
  form := hbc.1
  node := h.carried hbc.2
  isGenerator := (hbc.2.analysedAlike h.erase_eq).isGenerator
  points := (hbc.2.analysedAlike h.erase_eq).points.imp fun _ _ hpoint =>
    ⟨hpoint.1, h.carried hpoint.2⟩

end

/-- Every token of a tree is respelled.  Each declaration of the tree is carried to a declaration of
the same form, `async` if it was before.  Both have a body, or none has.  The body is carried to the
body, its suspension points to the suspension points in order, and it still yields if it did. -/
theorem analysis_survives_respelling {t u : Tree} {version version' : Nat} {left right : Node}
    (hleft : t.plant? version = some left) (hright : u.plant? version' = some right)
    (hsame : t.withoutTexts = u.withoutTexts) :
    ∀ d ∈ left.declarations, ∃ d' ∈ right.declarations,
      Carried left right d.node d'.node ∧ d.form = d'.form ∧
      d.node.isAsync = d'.node.isAsync ∧
      ∃ x y, d.body.value = .ok x ∧ d'.body.value = .ok y ∧
        Option.Rel (BodyCarried left right) x y := by
  have h : Respelled left right :=
    ⟨frames_of_plant? hleft, frames_of_plant? hright, erase_eq_of_plant? hleft hright hsame⟩
  intro d hd
  have hmem : d.node ∈ left.preorder := Declaration.mem_filterMap_declaration?_iff.mp hd
  obtain ⟨b, hb, -⟩ := existsUnique_right h.erase_eq hmem
  have halike := hb.analysedAlike h.erase_eq
  have hdeclaration := halike.declaration
  rw [declaration?_node d] at hdeclaration
  cases hd' : b.declaration? with
  | none =>
    rw [hd'] at hdeclaration
    cases hdeclaration
  | some d' =>
    rw [hd', Option.rel_some_some] at hdeclaration
    obtain ⟨hform, x, y, hx, hy, hbodies⟩ := hdeclaration
    obtain rfl : d'.node = b := node_of_declaration? hd'
    refine ⟨d', Declaration.mem_filterMap_declaration?_iff.mpr hb.mem_right, h.carried hb, hform,
      halike.isAsync, x, y, hx, hy, ?_⟩
    cases hbodies with
    | none => exact .none
    | some hbody => exact .some (h.bodyCarried hbody)

/-- In a method of two statements the first name loses all its text.  The `await` behind it moves to
the start of the text, and a lookup still finds it at its path. -/
theorem analysis_survives_respelling_of_first_name :
    let name (s : String) := Tree.node .identifierName [.token .identifier s]
    let await := Tree.node .awaitExpression [.token .awaitKw "await", name "b"]
    let block (s : String) := Tree.node .block [name s, await]
    let left : Node := ⟨0, .methodDeclaration, [block "a"], []⟩
    let right : Node := ⟨1, .methodDeclaration, [block ""], []⟩
    let body : Node := ⟨0, .block, [name "a", await], [⟨.methodDeclaration, [], []⟩]⟩
    let point (version : Nat) (s : String) : Node :=
      ⟨version, .awaitExpression, [.token .awaitKw "await", name "b"],
        [⟨.block, [name s], []⟩, ⟨.methodDeclaration, [], []⟩]⟩
    (Tree.node .methodDeclaration [block "a"]).withoutTexts =
        (Tree.node .methodDeclaration [block ""]).withoutTexts ∧
      (⟨left, .method, rfl⟩ : Declaration).body.value = .ok (some ⟨.block, body⟩) ∧
      body.suspensionPoints.value = [⟨.awaitExpression, point 0 "a"⟩] ∧
      (point 0 "a").start = 1 ∧ (point 1 "").start = 0 ∧
      left.partner right (point 0 "a") = .ok (some (point 1 "")) := by
  intro name await block left right body point
  have hleft : (Tree.node .methodDeclaration [block "a"]).plant? 0 = some left := rfl
  have hright : (Tree.node .methodDeclaration [block ""]).plant? 1 = some right := rfl
  have hsame : (Tree.node .methodDeclaration [block "a"]).withoutTexts =
      (Tree.node .methodDeclaration [block ""]).withoutTexts := by decide +kernel
  have hmethod : (⟨left, .method, rfl⟩ : Declaration) ∈ left.declarations :=
    Declaration.mem_filterMap_declaration?_iff.mpr (mem_preorder_iff.mpr ⟨[], rfl⟩)
  obtain ⟨d', -, -, -, -, x, y, hx, -, hbodies⟩ :=
    analysis_survives_respelling hleft hright hsame _ hmethod
  have hfound : (⟨left, .method, rfl⟩ : Declaration).body.value = .ok (some ⟨.block, body⟩) := rfl
  obtain rfl : some _ = x := Except.ok.inj (hfound.symm.trans hx)
  have hscan : body.suspensionPoints.value = [⟨.awaitExpression, point 0 "a"⟩] := by
    decide +kernel
  cases hbodies with
  | some hcarried =>
    have hpoints := hcarried.points
    rw [hscan] at hpoints
    obtain ⟨q, -, ⟨-, hq⟩, -⟩ := List.forall₂_cons_left_iff.mp hpoints
    have hmoved : right.nodeAt? (point 0 "a").path = some (point 1 "") := rfl
    rw [hq.nodeAt?_path, Option.some.injEq] at hmoved
    refine ⟨hsame, hfound, hscan, by decide, by decide, ?_⟩
    rw [← hmoved]
    exact hq.partner (by decide)

end LiveEdit.Node
