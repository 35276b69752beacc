import LiveEdit.Body.Basic
import LiveEdit.Suspension
import Mathlib.Data.List.Basic

/-!
# Images of nodes

A map of nodes `KeepsChildren` if the image of a node has the kind of the node, and the images of
its child nodes as child nodes.  A question that only looks down, and only at kinds, has the image
of the answer about the node as the answer about the image.

* `KeepsChildren.walk`: walks.
* `KeepsChildren.child?` and `KeepsChildren.childrenOf`: parts of a node.
* `KeepsChildren.ownBody?`: the body of a declaration.  Only an arrow clause looks up, at the kind
  of its parent.
* `KeepsChildren.resumePoints` and `KeepsChildren.isGenerator`: the state machine of a node, as far
  as the map keeps how nodes suspend.
-/

namespace LiveEdit

namespace Node

/-- A map of nodes that keeps kinds and goes down with its nodes. -/
structure KeepsChildren (f : Node → Node) : Prop where
  kind : ∀ n, (f n).kind = n.kind
  childNodes : ∀ n, (f n).childNodes = n.childNodes.map f

end Node

/-- The image of a body. -/
def Body.image (f : Node → Node) (b : Body) : Body := ⟨b.form, f b.node⟩

theorem Declaration.Form.ofKind?_image {f : Node → Node} (hf : Node.KeepsChildren f)
    (d : Declaration) : ofKind? (f d.node).kind = some d.form := by
  rw [hf.kind]
  exact d.form_eq

/-- The image of a declaration. -/
def Declaration.image {f : Node → Node} (hf : Node.KeepsChildren f) (d : Declaration) :
    Declaration :=
  ⟨f d.node, d.form, Form.ofKind?_image hf d⟩

/-- The image of a suspension point. -/
def SuspensionPoint.image (f : Node → Node) (p : SuspensionPoint) : SuspensionPoint :=
  ⟨p.kind, f p.node⟩

namespace Node

/-- Reading a part goes with a map if reading a node does. -/
theorem bind_map_image {α : Type} {f : Node → Node} {read : Node → Option α} {g : α → α}
    (hread : ∀ m : Node, read (f m) = (read m).map g) (part : Option Node) :
    (part.map f).bind read = (part.bind read).map g := by
  cases part with
  | none => rfl
  | some m => exact hread m

/-- A test of a part does not see the map if the test of a node does not. -/
theorem any_map_image {f : Node → Node} {test : Node → Bool}
    (htest : ∀ m : Node, test (f m) = test m) (part : Option Node) :
    (part.map f).any test = part.any test := by
  cases part with
  | none => rfl
  | some m => exact htest m

/-- The image of a part as a body is the image of the body. -/
theorem map_mk_image (f : Node → Node) (form : Body.Form) (part : Option Node) :
    (part.map f).map (Body.mk form) = (part.map (Body.mk form)).map (Body.image f) := by
  cases part <;> rfl

namespace KeepsChildren

variable {f : Node → Node} (hf : KeepsChildren f)

include hf

/-- A walk that chooses its way by what the map keeps reaches the images of the same nodes. -/
theorem walk {enter : Node → Bool} (henter : ∀ m : Node, enter (f m) = enter m) (n : Node) :
    (f n).walk enter = (n.walk enter).map f := by
  induction n using childInduction with
  | step n ih =>
    have hchildren : (f n).childNodes.flatMap (Node.walk enter) =
        (n.childNodes.flatMap (Node.walk enter)).map f := by
      rw [hf.childNodes, List.flatMap_map, List.map_flatMap, List.flatMap_def, List.flatMap_def,
        List.map_congr_left ih]
    rw [walk_eq, walk_eq, List.map_cons, henter, hchildren]
    cases enter n <;> rfl

theorem preorder (n : Node) : (f n).preorder = n.preorder.map f := by
  rw [← walk_true, ← walk_true, hf.walk fun _ => rfl]

/-! ## Parts -/

theorem childrenOf (n : Node) (accepts : Kind → Bool) :
    (f n).childrenOf accepts = (n.childrenOf accepts).map f := by
  have haccepts : (fun m : Node => accepts m.kind) ∘ f = fun m => accepts m.kind := by
    funext m
    exact congrArg accepts (hf.kind m)
  rw [Node.childrenOf, Node.childrenOf, hf.childNodes, List.filter_map, haccepts]

theorem child? (n : Node) (accepts : Kind → Bool) :
    (f n).child? accepts = (n.child? accepts).map f := by
  rw [child?_eq_head?_childrenOf, child?_eq_head?_childrenOf, hf.childrenOf, List.head?_map]

theorem arrowExpression? (n : Node) :
    (f n).arrowExpression? = n.arrowExpression?.map f := by
  rw [Node.arrowExpression?, Node.arrowExpression?, arrow?, childOf?, hf.child?]
  exact bind_map_image (fun m => hf.child? m Kind.isExpression) _

/-! ## Bodies -/

theorem blockOrArrow? (n : Node) : (f n).blockOrArrow? = n.blockOrArrow?.map (Body.image f) := by
  rw [Node.blockOrArrow?, Node.blockOrArrow?, block?, childOf?, hf.child?, hf.arrowExpression?,
    map_mk_image, map_mk_image, Option.map_or]
  rfl

theorem blockOrExpression? (n : Node) :
    (f n).blockOrExpression? = n.blockOrExpression?.map (Body.image f) := by
  rw [Node.blockOrExpression?, Node.blockOrExpression?, block?, childOf?, hf.child?, expression?,
    hf.child?, map_mk_image, map_mk_image, Option.map_or]
  rfl

/-- The body of the image of a declaration is the image of its body.  For an arrow clause the kind
of the parent has to be kept. -/
theorem ownBody? (d : Declaration)
    (hparent : d.form = .arrowClause →
      (f d.node).parent?.map Node.kind = d.node.parent?.map Node.kind) :
    (d.image hf).ownBody? = d.ownBody?.map (Body.image f) := by
  obtain ⟨n, form, hform⟩ := d
  have hexpression : (f n).expression?.map (Body.mk .expression) =
      (n.expression?.map (Body.mk .expression)).map (Body.image f) := by
    rw [expression?, hf.child?, map_mk_image, expression?]
  cases form with
  | method | constructor | destructor | operator | conversionOperator | accessor
  | localFunction => exact hf.blockOrArrow? n
  | lambda => exact hf.blockOrExpression? n
  | property =>
    have hvalue : (f n).equalsValue?.bind Node.expression? =
        (n.equalsValue?.bind Node.expression?).map f := by
      rw [equalsValue?, childOf?, hf.child?, equalsValue?, childOf?]
      exact bind_map_image (fun m => hf.child? m Kind.isExpression) _
    show ((f n).equalsValue?.bind Node.expression?).map (Body.mk .expression) = _
    rw [hvalue, map_mk_image]
    rfl
  | indexer => rfl
  | arrowClause =>
    have hany : ∀ part : Option Node,
        (part.any fun p => p.kind == .propertyDeclaration || p.kind == .indexerDeclaration) =
          (part.map Node.kind).any fun k =>
            k == .propertyDeclaration || k == .indexerDeclaration := by
      intro part
      cases part <;> rfl
    simp only [Declaration.ownBody?, Declaration.image, hany, hparent rfl, hexpression]
    split <;> rfl

/-! ## State machines -/

theorem ownCode (n : Node) : (f n).ownCode = n.ownCode.map f := by
  have hclosure : ∀ m : Node, (!(f m).isClosure) = !m.isClosure := by
    intro m
    rw [isClosure, isClosure, hf.kind]
  exact hf.walk hclosure n

/-- The points of the image are the images of the points. -/
theorem resumePoints {n : Node} (hsuspends : ∀ m ∈ n.ownCode, (f m).suspension? = m.suspension?) :
    (f n).resumePoints = n.resumePoints.map (SuspensionPoint.image f) := by
  rw [Node.resumePoints, Node.resumePoints, hf.ownCode, List.filterMap_map, List.map_filterMap]
  apply List.filterMap_congr
  intro m hm
  simp only [Function.comp_apply, resumePoint?, hsuspends m hm, Option.map_map]
  rfl

theorem isGenerator {n : Node} (hsuspends : ∀ m ∈ n.ownCode, (f m).suspension? = m.suspension?) :
    (f n).isGenerator = n.isGenerator := by
  have hany : n.ownCode.map (fun m => (f m).suspension?) = n.ownCode.map suspension? :=
    List.map_congr_left hsuspends
  have hgenerator : ∀ ms : List Node,
      (ms.any fun m => m.suspension?.any SuspensionKind.isGenerator) =
        (ms.map suspension?).any (·.any SuspensionKind.isGenerator) := by
    intro ms
    rw [List.any_map]
    rfl
  rw [Node.isGenerator, Node.isGenerator, hf.ownCode, hgenerator, hgenerator, List.map_map, ← hany]
  rfl

end KeepsChildren

end Node

end LiveEdit
