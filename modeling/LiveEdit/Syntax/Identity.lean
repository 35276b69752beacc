import LiveEdit.Syntax.Node

/-!
# When two nodes are the same

A document version stores a narrow subtree once, however often it occurs: the stored copy is
known by its content.  A wide subtree is stored where it stands.  Two nodes are the same when
they start at the same byte and their subtrees are one stored copy.

Nodes that cover text are the same only if they stand at the same path.  Nodes without text can
be the same and stand side by side.
-/

namespace LiveEdit

/-- The stored copy of a subtree. -/
inductive Storage where
  | shared (version : Nat) (tree : Tree)
  | own (version : Nat) (path : Path)
  deriving DecidableEq

namespace Node

/-- The stored copy that a node shows. -/
def storage (n : Node) : Storage :=
  if n.tree.narrow then .shared n.version n.tree else .own n.version n.path

/-- One stored copy at one place in the text. -/
def Same (a b : Node) : Prop := a.start = b.start ∧ a.storage = b.storage

instance : DecidableRel Same := fun a b =>
  inferInstanceAs (Decidable (a.start = b.start ∧ a.storage = b.storage))

@[refl] theorem Same.refl (a : Node) : a.Same a := ⟨rfl, rfl⟩

theorem Same.symm {a b : Node} (h : a.Same b) : b.Same a := ⟨h.1.symm, h.2.symm⟩

/-- Nodes of different versions are never the same. -/
theorem Same.version_eq {a b : Node} (h : a.Same b) : a.version = b.version := by
  have := h.2
  unfold storage at this
  split at this <;> split at this <;> simp_all

end Node

end LiveEdit
