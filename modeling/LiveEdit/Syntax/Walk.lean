import LiveEdit.Syntax.Node

/-!
# Walks

The walks list what is at and below a node in source order, a node before its children.

* `Node.preorder` lists every node; `mem_preorder_iff` says so by paths.
* `Node.walk enter` lists every node that it reaches, and goes below a node only if `enter`
  accepts it.
* `Node.content` lists every element below a node, tokens included.
-/

namespace LiveEdit.Node

/-- The node and all nodes below it. -/
def preorder (n : Node) : List Node :=
  n :: n.childNodes.attach.flatMap fun ⟨m, _⟩ => m.preorder
termination_by n.size
decreasing_by exact size_lt_of_mem_childNodes ‹_›

/-- The node and the nodes below it that a walk reaches when it goes below accepted nodes only.
A node that is not accepted is listed itself. -/
def walk (enter : Node → Bool) (n : Node) : List Node :=
  n :: if enter n then n.childNodes.attach.flatMap fun ⟨m, _⟩ => m.walk enter else []
termination_by n.size
decreasing_by exact size_lt_of_mem_childNodes ‹_›

/-- The elements below a node. -/
def content (n : Node) : List Element :=
  n.elements.attach.flatMap fun
    | ⟨.token t, _⟩ => [.token t]
    | ⟨.node m, _⟩ => .node m :: m.content
termination_by n.size
decreasing_by exact size_lt_of_mem_childNodes (List.mem_filterMap.mpr ⟨_, ‹_›, rfl⟩)

theorem preorder_eq (n : Node) : n.preorder = n :: n.childNodes.flatMap preorder := by
  rw [preorder, List.flatMap_subtype (g := preorder) fun _ _ => rfl, List.unattach_attach]

theorem walk_eq (enter : Node → Bool) (n : Node) :
    n.walk enter = n :: if enter n then n.childNodes.flatMap (walk enter) else [] := by
  rw [walk, List.flatMap_subtype (g := walk enter) fun _ _ => rfl, List.unattach_attach]

/-- The nodes at and below a node are those that a list of child indexes leads to. -/
theorem mem_preorder_iff {n m : Node} : m ∈ n.preorder ↔ ∃ p, n.nodeAt? p = some m := by
  induction n using childInduction with
  | step n ih =>
    rw [preorder_eq, List.mem_cons, List.mem_flatMap]
    constructor
    · rintro (rfl | ⟨c, hc, hm⟩)
      · exact ⟨[], rfl⟩
      · obtain ⟨p, hp⟩ := (ih c hc).mp hm
        obtain ⟨i, hi⟩ := mem_childNodes_iff.mp hc
        exact ⟨i :: p, Option.bind_eq_some_iff.mpr ⟨c, hi, hp⟩⟩
    · rintro ⟨_ | ⟨i, p⟩, h⟩
      · exact .inl (Option.some.inj h).symm
      · obtain ⟨c, hc, hm⟩ := Option.bind_eq_some_iff.mp h
        have hc := mem_childNodes_of_childNode? hc
        exact .inr ⟨c, hc, (ih c hc).mpr ⟨p, hm⟩⟩

/-- A walk that enters every node is the whole list. -/
theorem walk_true (n : Node) : n.walk (fun _ => true) = n.preorder := by
  induction n using childInduction with
  | step n ih =>
    rw [walk_eq, preorder_eq, if_pos rfl, List.flatMap_def, List.flatMap_def,
      List.map_congr_left ih]

/-- A walk that enters no node lists its start alone. -/
theorem walk_of_not_enter {enter : Node → Bool} {n : Node} (h : enter n = false) :
    n.walk enter = [n] := by
  simp [walk_eq, h]

end LiveEdit.Node
