import LiveEdit.Proofs.Agreement
import LiveEdit.Proofs.Building
import LiveEdit.Proofs.Erasure
import LiveEdit.Proofs.Ownership
import LiveEdit.Syntax.Layout
import Mathlib.Data.List.Forall2

/-!
# Bodies as trees of their own

A scan looks at most two levels above a node: a declarator asks whether it stands in an `await
using` declaration.  A body is a block or an expression and stands in no such declaration directly,
so a scan of a body never sees what is around the body.

* `Node.inside` puts a tree in the place of a node of another tree.  `path_inside` and
  `start_inside`: paths and places are those of the tree, with those of the place before them.
* `suspension?_inside`: if the place is `Sealed`, the nodes of the tree suspend as before.
* `Declaration.BodyPlace.isSealed`: bodies are.
* `runsAs_detached`: in such a place, a node runs as its tree does as a tree of its own.
* `exists_ownBody?_of_moved`: a declaration that is moved keeps its body.
* `exists_own_machine` concludes that a declaration has the same state machine wherever it
  stands.
-/

namespace LiveEdit

namespace Node

/-! ## A tree in the place of a node -/

/-- A node of a tree, once the tree stands in the place of a node. -/
def inside (place m : Node) : Node :=
  ⟨place.version, m.kind, m.children, m.frames ++ place.frames⟩

/-- The tree below a node as a tree of its own. -/
def detached (version : Nat) (n : Node) : Node := ⟨version, n.kind, n.children, []⟩

variable {place m : Node}

theorem inside_detached (place : Node) (version : Nat) :
    place.inside (place.detached version) = place :=
  rfl

theorem childNodesAfter_inside (before after : List Tree) :
    (place.inside m).childNodesAfter before after =
      (m.childNodesAfter before after).map (inside place) := by
  induction after generalizing before with
  | nil => rfl
  | cons t after ih =>
    cases t with
    | token k s => rw [childNodesAfter, childNodesAfter, ih]
    | node k cs =>
      rw [childNodesAfter, childNodesAfter, ih]
      rfl

theorem keepsChildren_inside (place : Node) : KeepsChildren (inside place) where
  kind _ := rfl
  childNodes m := by
    rw [childNodes_eq_childNodesAfter, childNodes_eq_childNodesAfter]
    exact childNodesAfter_inside [] m.children

theorem childNode?_inside (i : Nat) :
    (place.inside m).childNode? i = (m.childNode? i).map (inside place) := by
  rw [childNode?, childNode?, elements_getElem?, elements_getElem?]
  show (m.children[i]?.map (element (place.inside m) i)).bind Element.node? = _
  cases m.children[i]? with
  | none => rfl
  | some t => cases t <;> rfl

theorem nodeAt?_inside (p : Path) :
    (place.inside m).nodeAt? p = (m.nodeAt? p).map (inside place) := by
  induction p generalizing m with
  | nil => rfl
  | cons i p ih =>
    rw [nodeAt?, nodeAt?, childNode?_inside]
    cases m.childNode? i with
    | none => rfl
    | some c => exact ih

theorem path_inside : (place.inside m).path = place.path ++ m.path := by
  rw [path, path, path, inside, List.map_append, List.reverse_append]

theorem bytesBefore_append (fs gs : List Frame) :
    bytesBefore (fs ++ gs) = bytesBefore gs + bytesBefore fs := by
  induction fs with
  | nil => rfl
  | cons f fs ih => rw [List.cons_append, bytesBefore, bytesBefore, ih, Nat.add_assoc]

theorem start_inside : (place.inside m).start = place.start + m.start :=
  bytesBefore_append m.frames place.frames

theorem stop_inside : (place.inside m).stop = place.start + m.stop := by
  rw [stop, stop, start_inside, Nat.add_assoc]
  rfl

/-- Below its root, a tree looks the same from inside. -/
theorem parent?_inside {p : Node} (hp : m.parent? = some p) :
    (place.inside m).parent? = some (place.inside p) := by
  obtain ⟨version, kind, children, frames⟩ := m
  cases frames with
  | nil => cases hp
  | cons f fs =>
    obtain rfl := Option.some.inj hp
    rfl

/-! ## Suspension below a place -/

/-- A place from which no declaration of local variables around it is seen: it is no declarator, and
does not stand in such a declaration directly. -/
structure Sealed (place : Node) : Prop where
  kind : place.kind ≠ .variableDeclarator
  parent : ∀ p, place.parent? = some p → p.kind ≠ .localDeclarationStatement

theorem eq_or_parent_of_mem_ancestors {a m : Node} (ha : a ∈ m.ancestors) :
    a = m ∨ ∃ p, m.parent? = some p ∧ a ∈ p.ancestors := by
  by_cases hframes : m.frames = []
  · rw [ancestors, properAncestors_of_frames_nil hframes, List.mem_singleton] at ha
    exact .inl ha
  · obtain ⟨p, hchild⟩ := exists_parent hframes
    rw [ancestors_of_mem_childNodes hchild, List.mem_cons] at ha
    exact ha.imp_right fun hap => ⟨p, parent?_of_mem_childNodes hchild, hap⟩

theorem cue_inside : (place.inside m).cue = m.cue := cue_eq_of_outline_eq rfl

/-- In a sealed place, the nodes of a tree suspend as they do in a tree of their own.  A declarator
directly below the root is marked by nothing on either side. -/
theorem suspension?_inside (hsealed : place.Sealed) {version : Nat}
    (hm : place.detached version ∈ m.ancestors) :
    (place.inside m).suspension? = m.suspension? := by
  by_cases hkind : m.kind = .variableDeclarator
  · rcases eq_or_parent_of_mem_ancestors hm with rfl | ⟨p, hp, hroot⟩
    · exact absurd hkind hsealed.kind
    · rcases eq_or_parent_of_mem_ancestors hroot with rfl | ⟨q, hq, -⟩
      · have hinside : (place.inside m).parent? = some place := parent?_inside hp
        have habove : place.parent?.filter (fun s => s.kind == .localDeclarationStatement) =
            none := by
          rw [Option.filter_eq_none_iff]
          intro s hs
          simpa using hsealed.parent s hs
        have hnone : (place.detached version).parent? = none := rfl
        have hkind' : (place.inside m).kind = .variableDeclarator := hkind
        rw [suspension?_of_declarator hkind, suspension?_of_declarator hkind', hinside, hp,
          Option.bind_some, Option.bind_some, habove, hnone]
        rfl
      · apply suspension?_congr cue_inside
        rw [parent?_inside hp, hp, Option.bind_some, Option.bind_some, parent?_inside hq, hq]
        exact congrArg some cue_inside
  · exact suspension?_congr_of_kind cue_inside hkind

end Node

/-! ## Machines at a place -/

/-- A point at a place and a point of a tree of its own are the same point: the path and the range
at the place are those in the tree, with what comes before the place added. -/
structure SuspensionPoint.SeenFrom (place : Node) (p q : SuspensionPoint) : Prop where
  kind : p.kind = q.kind
  tree : p.node.tree = q.node.tree
  path : p.node.path = place.path ++ q.node.path
  start : p.node.start = place.start + q.node.start
  stop : p.node.stop = place.start + q.node.stop

namespace Node

/-- A node has the state machine that a tree of its own has. -/
structure RunsAs (n own : Node) : Prop where
  points : List.Forall₂ (SuspensionPoint.SeenFrom n) n.suspensionPoints.value
    own.suspensionPoints.value
  isGenerator : n.isGenerator = own.isGenerator

/-- In a sealed place, a node runs as its tree does as a tree of its own. -/
theorem runsAs_detached {n : Node} (hsealed : n.Sealed) (version : Nat) :
    n.RunsAs (n.detached version) := by
  have hsuspends : ∀ m ∈ (n.detached version).ownCode,
      (n.inside m).suspension? = m.suspension? := fun m hm =>
    suspension?_inside hsealed (mem_ownCode_iff.mp hm).1
  constructor
  · have hpoints : n.resumePoints =
        (n.detached version).resumePoints.map (SuspensionPoint.image (inside n)) :=
      (keepsChildren_inside n).resumePoints hsuspends
    show List.Forall₂ _ n.resumePoints (n.detached version).resumePoints
    rw [hpoints, List.forall₂_map_left_iff, List.forall₂_same]
    exact fun q _ => ⟨rfl, rfl, path_inside, start_inside, stop_inside⟩
  · exact (keepsChildren_inside n).isGenerator hsuspends

end Node

namespace Declaration

theorem kind_node_ne_localDeclaration (d : Declaration) :
    d.node.kind ≠ .localDeclarationStatement := by
  intro hkind
  have hform := d.form_eq
  rw [hkind] at hform
  cases hform

/-- No declaration of local variables around a body is seen from the body. -/
theorem BodyPlace.isSealed {d : Declaration} {b : Body} (hplace : BodyPlace d b) :
    b.node.Sealed := by
  have hkind : b.node.kind ≠ .variableDeclarator := by
    rcases hplace.kind with h | h
    · simp [h]
    · intro hdeclarator
      rw [hdeclarator] at h
      cases h
  refine ⟨hkind, ?_⟩
  have hparent : ∀ {a c : Node}, c ∈ a.childNodes → a.kind ≠ .localDeclarationStatement →
      ∀ p, c.parent? = some p → p.kind ≠ .localDeclarationStatement := by
    intro a c hchild ha p hp
    rw [Node.parent?_of_mem_childNodes hchild] at hp
    rwa [← Option.some.inj hp]
  cases hplace with
  | block _ hchild _ => exact hparent hchild d.kind_node_ne_localDeclaration
  | arrow _ _ hclause hchild _ => exact hparent hchild (by simp [hclause])
  | lambda _ hchild _ => exact hparent hchild d.kind_node_ne_localDeclaration
  | initializer _ _ hclause hchild _ => exact hparent hchild (by simp [hclause])
  | clause _ _ _ hchild _ => exact hparent hchild d.kind_node_ne_localDeclaration

theorem runsAs_of_tree_eq {d : Declaration} {b : Body} (hb : d.ownBody? = some b) {own : Node}
    {version : Nat} (hown : b.node.tree.plant? version = some own) : b.node.RunsAs own := by
  obtain rfl : b.node.detached version = own := Option.some.inj hown
  exact Node.runsAs_detached (bodyPlace_of_ownBody? hb).isSealed version

/-! ## Members that are moved -/

end Declaration

namespace Node

/-- Nodes at one path below equal trees come from one node of the tree. -/
theorem exists_origin {a b : Node} (htree : b.tree = a.tree) {p : Path} {m n : Node}
    (hm : a.nodeAt? p = some m) (hn : b.nodeAt? p = some n) :
    ∃ o, (a.detached 0).nodeAt? p = some o ∧ a.inside o = m ∧ b.inside o = n := by
  have hb : b.inside (a.detached 0) = b := by
    obtain ⟨hkind, hchildren⟩ := Tree.node.inj htree
    show (⟨b.version, a.kind, a.children, [] ++ b.frames⟩ : Node) = b
    rw [← hkind, ← hchildren]
    rfl
  rw [← inside_detached a 0, nodeAt?_inside] at hm
  rw [← hb, nodeAt?_inside] at hn
  obtain ⟨o, ho, hom⟩ := Option.map_eq_some_iff.mp hm
  obtain ⟨o', ho', hon⟩ := Option.map_eq_some_iff.mp hn
  obtain rfl : o = o' := Option.some.inj (ho.symm.trans ho')
  exact ⟨o, ho, hom, hon⟩

end Node

namespace Declaration

/-- In any place, the body of a declaration is the body that it has in a tree of its own.  An arrow
clause asks whose clause it is, so its parent has to be part of the tree. -/
theorem ownBody?_inside {own : Node} {p : Path} {d : Declaration}
    (hd : own.nodeAt? p = some d.node) (hclause : d.form = .arrowClause → p ≠ []) (place : Node) :
    (d.image (Node.keepsChildren_inside place)).ownBody? =
      d.ownBody?.map (Body.image (Node.inside place)) := by
  refine (Node.keepsChildren_inside place).ownBody? d fun harrow => ?_
  obtain ⟨q, i, rfl⟩ := (List.eq_nil_or_concat' p).resolve_left (hclause harrow)
  obtain ⟨a, ha⟩ := Node.exists_nodeAt?_of_prefix hd (List.prefix_append q [i])
  have hparent : d.node.parent? = some a := by
    rw [Node.parent?_of_nodeAt?_concat hd, ha]
  rw [Node.parent?_inside hparent, hparent]
  rfl

/-- A declaration that is moved with a tree around it keeps its body. -/
theorem exists_ownBody?_of_moved {member member' : Node} (htree : member'.tree = member.tree)
    {p : Path} {d d' : Declaration} (hd : member.nodeAt? p = some d.node)
    (hd' : member'.nodeAt? p = some d'.node) (hclause : d.form = .arrowClause → p ≠ []) {b : Body}
    (hb : d.ownBody? = some b) :
    ∃ b', d'.ownBody? = some b' ∧ b'.form = b.form ∧ b'.node.tree = b.node.tree := by
  obtain ⟨o, ho, hnode, hnode'⟩ := Node.exists_origin htree hd hd'
  have hform : Form.ofKind? o.kind = some d.form := by
    have hkind := d.form_eq
    rwa [← hnode] at hkind
  let origin : Declaration := ⟨o, d.form, hform⟩
  have himage : d = origin.image (Node.keepsChildren_inside member) := eq_of_node_eq hnode.symm
  have himage' : d' = origin.image (Node.keepsChildren_inside member') :=
    eq_of_node_eq hnode'.symm
  have hinside := ownBody?_inside (d := origin) ho hclause
  rw [himage, hinside] at hb
  obtain ⟨c, hc, rfl⟩ := Option.map_eq_some_iff.mp hb
  refine ⟨c.image (Node.inside member'), ?_, rfl, rfl⟩
  rw [himage', hinside, hc]
  rfl

/-- The body of a declaration runs as its tree does as a tree of its own.  This is the tree that a
sketch of the body builds, and it has the same points, with paths and ranges counted from the start
of the body, and yields if the body does.

So a declaration has this state machine wherever the tree around it stands. -/
theorem exists_own_machine {d : Declaration} {b : Body} (hb : d.body.value = .ok (some b))
    (version : Nat) :
    ∃ own, b.node.tree.plant? version = some own ∧
      (∀ s : Sketch, s.Fits → s.tree = b.node.tree → s.build version = .ok own) ∧
      b.node.RunsAs own ∧
      ∀ (member member' : Node) (p : Path) (d' : Declaration), member'.tree = member.tree →
        member.nodeAt? p = some d.node → member'.nodeAt? p = some d'.node →
        (d.form = .arrowClause → p ≠ []) →
        ∃ b', d'.body.value = .ok (some b') ∧ b'.form = b.form ∧ b'.node.RunsAs own := by
  rw [Node.body_value_eq_some_iff] at hb
  have hown : b.node.tree.plant? version = some (b.node.detached version) := rfl
  refine ⟨b.node.detached version, hown, ?_, runsAs_of_tree_eq hb hown, ?_⟩
  · intro s hfits hs
    exact Sketch.build_of_fits hfits (by rw [hs, hown])
  · intro member member' p d' htree hd hd' hclause
    obtain ⟨b', hb', hform, hbody⟩ := exists_ownBody?_of_moved htree hd hd' hclause hb
    exact ⟨b', Node.body_value_eq_some_iff.mpr hb', hform,
      runsAs_of_tree_eq hb' (by rw [hbody, hown])⟩

/-- A method in a class.  In its body stands `await using var x= r;`.  The declarator is a point of
the body, wherever the body stands. -/
theorem exists_own_machine_of_await_using :
    let resource := Sketch.localDeclaration [.awaitKw, .usingKw] [("x", .name "r")]
    let body := Sketch.block [resource]
    let around := Sketch.classOf "C" [.method [] "M" [] (.block body)]
    ∃ (root : Node) (d : Declaration) (b : Body) (own : Node),
      around.build 0 = .ok root ∧ root.nodeAt? [4] = some d.node ∧
      d.body.value = .ok (some b) ∧ b.node.start = 16 ∧ body.build 1 = .ok own ∧
      own.suspensionPoints.value.map SuspensionPoint.place = [([1, 4, 2], .awaitUsing)] ∧
      b.node.RunsAs own := by
  intro resource body around
  let root : Node := (around.tree.plant? 0).get (by decide +kernel)
  let d : Declaration := ⟨(root.nodeAt? [4]).get (by decide +kernel), .method, by decide +kernel⟩
  let b : Body := ⟨.block, (root.nodeAt? [4, 4]).get (by decide +kernel)⟩
  have hroot : around.tree.plant? 0 = some root := by decide +kernel
  have hd : root.nodeAt? [4] = some d.node := by decide +kernel
  have hb : d.ownBody? = some b := by decide +kernel
  have haround : around.Fits := by
    rw [Sketch.Fits]
    decide +kernel
  have hbody : body.Fits := by
    rw [Sketch.Fits]
    decide +kernel
  have htree : body.tree = b.node.tree := by decide +kernel
  obtain ⟨own, hown, hbuild, hruns, -⟩ :=
    exists_own_machine (Node.body_value_eq_some_iff.mpr hb) 1
  refine ⟨root, d, b, own, Sketch.build_of_fits haround hroot, hd,
    Node.body_value_eq_some_iff.mpr hb, by decide +kernel, hbuild body hbody htree, ?_, hruns⟩
  obtain rfl := Option.some.inj hown
  decide +kernel

end Declaration

end LiveEdit
