import LiveEdit.Syntax.Identity
import LiveEdit.Syntax.Walk

/-!
# Traversals

A traversal goes through a subtree one visit at a time.  It enters a node, goes through what is
below it, and leaves the node.  When it has just entered a node, it can be told to skip what is
below.

* `Node.visits` are the visits of a subtree in order.
* `Traversal` is anything that reports visits and can skip, and `Traversal.PrunesTo` says which nodes
  it enters when it skips what is below nodes that are not accepted.
* `Cursor` is a traversal that finds its way by first children, next siblings and parents.  It keeps
  nothing but the place where it began and its next visit.
-/

namespace LiveEdit

/-- One step on the way through a subtree. -/
inductive Visit where
  /-- Go to a node, before anything below it. -/
  | enter (n : Node)
  /-- Go away from a node, after everything below it. -/
  | leave (n : Node)
  deriving DecidableEq

namespace Node

/-- The visits of a node and of everything below it. -/
def visits (n : Node) : List Visit :=
  .enter n :: (n.childNodes.attach.flatMap fun ⟨m, _⟩ => m.visits) ++ [.leave n]
termination_by n.size
decreasing_by exact size_lt_of_mem_childNodes ‹_›

theorem visits_eq (n : Node) :
    n.visits = .enter n :: n.childNodes.flatMap visits ++ [.leave n] := by
  rw [visits, List.flatMap_subtype (g := visits) fun _ _ => rfl, List.unattach_attach]

/-- The next node below the same parent. -/
def nextSibling? (n : Node) : Option Node :=
  n.parent?.bind fun p => p.childNodes.find? fun m => n.index < m.index

end Node

/-- A way to go through subtrees, with states in `σ`. -/
structure Traversal (σ : Type) where
  /-- The state in front of the first visit. -/
  start : Node → σ
  /-- The next visit, and the state behind it. -/
  next? : σ → Option (Visit × σ)
  /-- Pass over what is below the node that was just entered. -/
  skip : σ → σ

/-- From a state on, the nodes `ns` are entered before the visits end, if what is below nodes that are
not accepted is skipped. -/
inductive Traversal.PrunesTo {σ : Type} (t : Traversal σ) (enter : Node → Bool) :
    σ → List Node → Prop
  | nil {s : σ} (hnext : t.next? s = none) : t.PrunesTo enter s []
  | leave {s s' : σ} {n : Node} {ns : List Node} (hnext : t.next? s = some (.leave n, s'))
      (hrest : t.PrunesTo enter s' ns) : t.PrunesTo enter s ns
  | enter {s s' : σ} {n : Node} {ns : List Node} (hnext : t.next? s = some (.enter n, s'))
      (hrest : t.PrunesTo enter (if enter n then s' else t.skip s') ns) :
      t.PrunesTo enter s (n :: ns)

/-- A place on the way through a subtree. -/
structure Cursor where
  /-- The node at which the way began. -/
  origin : Node
  /-- The next visit. -/
  upcoming : Option Visit
  deriving DecidableEq

namespace Cursor

/-- The visit behind a visit.  The way ends where it leaves the node at which it began. -/
def following? (origin : Node) : Visit → Option Visit
  | .enter n => some ((n.childNodes.head?.map .enter).getD (.leave n))
  | .leave n =>
    if n.Same origin then none
    else (n.nextSibling?.map .enter).or (n.parent?.map .leave)

/-- The next visit, and the place behind it. -/
def next? (c : Cursor) : Option (Visit × Cursor) :=
  c.upcoming.map fun v => (v, ⟨c.origin, following? c.origin v⟩)

/-- Go on where the node is left that was just entered. -/
def skip (c : Cursor) : Cursor :=
  ⟨c.origin, c.upcoming.bind fun
    | .enter first => first.parent?.map .leave
    | .leave n => some (.leave n)⟩

/-- The way of a cursor. -/
def traversal : Traversal Cursor := ⟨fun n => ⟨n, some (.enter n)⟩, next?, skip⟩

end Cursor

end LiveEdit
