import LiveEdit.Log.Event

/-!
# Partners in another version

Two versions of a document are walked down side by side, from their roots through the children
with the same index.  The node that the right walk reaches is the partner of the node that the
left walk reaches.

* `Node.leafAndPartner` walks down to the token at an offset.  Once the kinds of the two sides
  differ, the right side is lost for good.
* `Node.partner` walks down to a given node.  Kinds that differ on the way are an error: the
  caller promised that nothing changed there.

Both choose the way down by an offset, so children without text are passed over.
-/

namespace LiveEdit

/-- The index of the tree in which an offset lies, counted from the start of the first.  An offset
past the end lies in the last tree. -/
def Tree.indexAt? (offset : Nat) : List Tree → Option Nat
  | [] => none
  | [_] => some 0
  | t :: ts => if offset < t.width then some 0 else (indexAt? (offset - t.width) ts).map (· + 1)

namespace Node

/-- The child in which an offset lies, with its index.  The end of a node lies in its last
child. -/
def childAt? (n : Node) (offset : Nat) : Option (Nat × Element) :=
  if n.start ≤ offset ∧ offset ≤ n.stop then
    (Tree.indexAt? (offset - n.start) n.children).bind fun i => n.elements[i]?.map (i, ·)
  else none

theorem mem_childNodes_of_childAt? {n m : Node} {offset i : Nat}
    (h : n.childAt? offset = some (i, .node m)) : m ∈ n.childNodes := by
  unfold childAt? at h
  split at h
  · obtain ⟨j, -, hj⟩ := Option.bind_eq_some_iff.mp h
    obtain ⟨e, he, hp⟩ := Option.map_eq_some_iff.mp hj
    obtain ⟨rfl, rfl⟩ := Prod.mk.inj hp
    exact List.mem_filterMap.mpr ⟨_, List.mem_of_getElem? he, rfl⟩
  · cases h

end Node

/-- A token at an offset, the node that holds it, and the partner of that node. -/
structure LeafMatch where
  leaf : Token
  left : Node
  right : Option Node
  deriving DecidableEq

namespace Node

/-- The right side of a pair if the kinds agree, and a report if they do not. -/
def agreeing (left : Node) (right : Option Node) (depth : Nat) : Logged (Option Node) :=
  match right with
  | none => ⟨none, []⟩
  | some r =>
    if r.kind = left.kind then ⟨some r, []⟩
    else ⟨none, [.partnerDiverged depth left.kind r.kind]⟩

/-- The walk of `leafAndPartner` from `depth` steps down. -/
def leafAndPartnerFrom (depth : Nat) (left : Node) (offset : Nat) (right : Option Node) :
    Logged (Option LeafMatch) :=
  let agreed := left.agreeing right depth
  match _h : left.childAt? offset with
  | none => ⟨none, agreed.events⟩
  | some (_, .token t) => ⟨some ⟨t, left, agreed.value⟩, agreed.events⟩
  | some (i, .node m) =>
    (leafAndPartnerFrom (depth + 1) m offset (agreed.value.bind (·.childNode? i))).after
      agreed.events
termination_by left.size
decreasing_by exact size_lt_of_mem_childNodes (mem_childNodes_of_childAt? ‹_›)

/-- The token at an offset below `left`, and the partner below `right` of the node around it.
There is no answer if the offset lies outside `left` or the walk ends at a node without
children. -/
def leafAndPartner (left : Node) (offset : Nat) (right : Node) : Logged (Option LeafMatch) :=
  leafAndPartnerFrom 0 left offset (some right)

end Node

/-- A promise of the caller of `Node.partner` that was broken. -/
inductive PartnerFault where
  /-- The node covers no text, so no offset leads to it. -/
  | zeroWidth
  /-- The node does not lie below the left root. -/
  | foreignNode
  /-- The two sides have different kinds above the node. -/
  | diverged (left right : Kind)
  /-- The walk down came to a token. -/
  | reachedToken
  deriving DecidableEq

/-- The text of a partner fault. -/
def PartnerFault.message : PartnerFault → String
  | zeroWidth => "partner lookup of a zero-width node"
  | foreignNode => "node does not belong to the left tree"
  | diverged l r =>
    "assertion `left == right` failed: trees diverge above an unaffected node\n  left: "
      ++ l.name ++ "\n right: " ++ r.name
  | reachedToken => "descent reached a token"

namespace Node

/-- The walk of `partner` below a pair of nodes. -/
def partnerFrom (target left right : Node) : Except PartnerFault (Option Node) :=
  if left.Same target then .ok (some right)
  else if left.kind ≠ right.kind then .error (.diverged left.kind right.kind)
  else
    match _h : left.childAt? target.start with
    | none => .ok none
    | some (_, .token _) => .error .reachedToken
    | some (i, .node m) =>
      match right.childNode? i with
      | none => .ok none
      | some r => partnerFrom target m r
termination_by left.size
decreasing_by exact size_lt_of_mem_childNodes (mem_childNodes_of_childAt? ‹_›)

/-- The node below `rightRoot` at the place that `target` has below `leftRoot`. -/
def partner (leftRoot rightRoot target : Node) : Except PartnerFault (Option Node) :=
  if target.width = 0 then .error .zeroWidth
  else if target.ancestors.all fun a => ¬a.Same leftRoot then .error .foreignNode
  else partnerFrom target leftRoot rightRoot

end Node

end LiveEdit
