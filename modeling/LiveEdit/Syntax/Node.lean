import LiveEdit.Syntax.Tree

/-!
# Located nodes and tokens

A `Node` is a node of a tree together with everything around it: the frames from the node up to
the root, innermost first.  A node therefore knows its parent, its path and its place in the
text, and two nodes with the same children at different places differ.

* `Node.elements` lists the children, tokens included; `Node.childNodes` and `Node.tokens` pick
  one sort of them.
* `Node.parent?`, `Node.ancestors` go up.  `parent?_of_mem_childNodes` says that going down and
  up again leads back.
* `Node.path` is the list of child indexes from the root, tokens counted; `Node.nodeAt?` follows
  such a list down.  `path_of_nodeAt?` joins the two.
* `Node.start`, `Node.range` are places in the text, in bytes.  `start_of_childNode?` says where
  a child starts.

A node also carries the number of the document version that it belongs to.
-/

namespace LiveEdit

/-- The child indexes from one node down to another, tokens counted. -/
abbrev Path := List Nat

/-- A stretch of text, in bytes. -/
structure Range where
  start : Nat
  stop : Nat
  deriving DecidableEq, Inhabited

/-- Whether a range holds no byte. -/
def Range.isEmpty (r : Range) : Bool := r.start == r.stop

/-- A range as its two ends. -/
def Range.render (r : Range) : String := toString r.start ++ ".." ++ toString r.stop

/-- What surrounds a child: its parent's kind and its siblings on both sides. -/
structure Frame where
  kind : Kind
  before : List Tree
  after : List Tree
  deriving DecidableEq, Inhabited

/-- A node of a document version, with the frames around it, innermost first. -/
structure Node where
  version : Nat
  kind : Kind
  children : List Tree
  frames : List Frame
  deriving DecidableEq, Inhabited

/-- A token of a document version: the child of `parent` at `index`. -/
structure Token where
  parent : Node
  index : Nat
  kind : Kind
  text : String
  deriving DecidableEq

/-- A child of a node. -/
inductive Element where
  | node (n : Node)
  | token (t : Token)
  deriving DecidableEq

/-- A tree as the root of a document version; a token is no root. -/
def Tree.plant? (version : Nat) : Tree → Option Node
  | .token .. => none
  | .node k cs => some ⟨version, k, cs, []⟩

namespace Node

/-- The tree below a node. -/
def tree (n : Node) : Tree := .node n.kind n.children

/-- The number of tokens and nodes at and below a node. -/
def size (n : Node) : Nat := n.tree.size

/-- The source text of a node. -/
def text (n : Node) : String := n.tree.text

/-! ### Places -/

/-- The child indexes from the root to a node. -/
def path (n : Node) : Path := (n.frames.map (·.before.length)).reverse

/-- The number of bytes before a child with the given frames around it. -/
def bytesBefore : List Frame → Nat
  | [] => 0
  | f :: fs => bytesBefore fs + Tree.widths f.before

/-- The number of bytes before a node. -/
def start (n : Node) : Nat := bytesBefore n.frames

/-- The length of a node in bytes. -/
def width (n : Node) : Nat := n.tree.width

/-- The place where a node ends. -/
def stop (n : Node) : Nat := n.start + n.width

/-- The stretch of text that a node covers. -/
def range (n : Node) : Range := ⟨n.start, n.stop⟩

/-! ### Up -/

/-- The nodes above a subtree with the given frames around it. -/
def enclosing (version : Nat) (t : Tree) : List Frame → List Node
  | [] => []
  | f :: fs =>
    let n : Node := ⟨version, f.kind, f.before ++ t :: f.after, fs⟩
    n :: enclosing version n.tree fs

/-- The nodes strictly above a node, innermost first. -/
def properAncestors (n : Node) : List Node := enclosing n.version n.tree n.frames

/-- A node and the nodes above it, innermost first. -/
def ancestors (n : Node) : List Node := n :: n.properAncestors

/-- The node directly above. -/
def parent? (n : Node) : Option Node := n.properAncestors.head?

/-! ### Down -/

/-- The child of `n` at index `i`, given the tree that stands there. -/
def element (n : Node) (i : Nat) : Tree → Element
  | .token k s => .token ⟨n, i, k, s⟩
  | .node k cs =>
    .node ⟨n.version, k, cs, ⟨n.kind, n.children.take i, n.children.drop (i + 1)⟩ :: n.frames⟩

/-- The children of a node in source order. -/
def elements (n : Node) : List Element := n.children.mapIdx n.element

end Node

namespace Element

/-- The node that an element is, if it is one. -/
def node? : Element → Option Node
  | node n => some n
  | token _ => none

/-- The token that an element is, if it is one. -/
def token? : Element → Option Token
  | node _ => none
  | token t => some t

end Element

namespace Token

/-- The number of bytes before a token. -/
def start (t : Token) : Nat := t.parent.start + Tree.widths (t.parent.children.take t.index)

/-- The place where a token ends. -/
def stop (t : Token) : Nat := t.start + t.text.utf8ByteSize

/-- The stretch of text that a token covers. -/
def range (t : Token) : Range := ⟨t.start, t.stop⟩

end Token

namespace Element

/-- The kind of an element. -/
def kind : Element → Kind
  | node n => n.kind
  | token t => t.kind

/-- The stretch of text that an element covers. -/
def range : Element → Range
  | node n => n.range
  | token t => t.range

end Element

namespace Node

/-- The children that are nodes. -/
def childNodes (n : Node) : List Node := n.elements.filterMap Element.node?

/-- The children that are tokens. -/
def tokens (n : Node) : List Token := n.elements.filterMap Element.token?

/-- The index of a node among its parent's children; a root has index zero. -/
def index (n : Node) : Nat := (n.frames.head?.map (·.before.length)).getD 0

/-- The child at an index, if it is a node. -/
def childNode? (n : Node) (i : Nat) : Option Node := n.elements[i]?.bind Element.node?

/-- The node that a list of child indexes leads to. -/
def nodeAt? (n : Node) : Path → Option Node
  | [] => some n
  | i :: p => (n.childNode? i).bind (nodeAt? · p)

/-! ### Down and up -/

@[simp] theorem elements_length (n : Node) : n.elements.length = n.children.length := by
  simp [elements]

theorem elements_getElem? (n : Node) (i : Nat) :
    n.elements[i]? = n.children[i]?.map (n.element i) := by
  simp [elements]

/-- A child that is a node has its parent's version, and its frame is what stands around it. -/
theorem childNode?_eq_some {n m : Node} {i : Nat} (h : n.childNode? i = some m) :
    ∃ hi : i < n.children.length, n.children[i] = m.tree ∧ m.version = n.version ∧
      m.frames = ⟨n.kind, n.children.take i, n.children.drop (i + 1)⟩ :: n.frames := by
  simp only [childNode?, elements_getElem?] at h
  by_cases hi : i < n.children.length
  · rw [List.getElem?_eq_getElem hi] at h
    refine ⟨hi, ?_⟩
    generalize n.children[i] = t at h ⊢
    cases t with
    | token k s => simp [element, Element.node?] at h
    | node k cs =>
      simp only [Option.map_some, Option.bind_some, element, Element.node?, Option.some.injEq] at h
      subst h
      exact ⟨rfl, rfl, rfl⟩
  · rw [List.getElem?_eq_none (by omega)] at h
    cases h

theorem mem_childNodes_iff {n m : Node} : m ∈ n.childNodes ↔ ∃ i, n.childNode? i = some m := by
  rw [childNodes, List.mem_filterMap]
  constructor
  · rintro ⟨e, he, hm⟩
    obtain ⟨i, hi⟩ := List.mem_iff_getElem?.mp he
    exact ⟨i, Option.bind_eq_some_iff.mpr ⟨e, hi, hm⟩⟩
  · rintro ⟨i, h⟩
    obtain ⟨e, hi, hm⟩ := Option.bind_eq_some_iff.mp h
    exact ⟨e, List.mem_of_getElem? hi, hm⟩

theorem mem_childNodes_of_childNode? {n m : Node} {i : Nat} (h : n.childNode? i = some m) :
    m ∈ n.childNodes :=
  mem_childNodes_iff.mpr ⟨i, h⟩

/-- The path of a child ends with its index. -/
theorem path_of_childNode? {n m : Node} {i : Nat} (h : n.childNode? i = some m) :
    m.path = n.path ++ [i] := by
  obtain ⟨hi, -, -, hf⟩ := childNode?_eq_some h
  simp [path, hf, Nat.min_eq_left (Nat.le_of_lt hi)]

/-- A child starts behind its parent's first children. -/
theorem start_of_childNode? {n m : Node} {i : Nat} (h : n.childNode? i = some m) :
    m.start = n.start + Tree.widths (n.children.take i) := by
  obtain ⟨-, -, -, hf⟩ := childNode?_eq_some h
  simp [start, bytesBefore, hf]

/-- The path of a node below `n` goes on from the path of `n`. -/
theorem path_of_nodeAt? {n m : Node} {p : Path} (h : n.nodeAt? p = some m) :
    m.path = n.path ++ p := by
  induction p generalizing n with
  | nil =>
    obtain rfl := Option.some.inj h
    simp
  | cons i p ih =>
    obtain ⟨c, hc, hm⟩ := Option.bind_eq_some_iff.mp h
    rw [ih hm, path_of_childNode? hc, List.append_assoc, List.singleton_append]

theorem nodeAt?_append (n : Node) (p q : Path) :
    n.nodeAt? (p ++ q) = (n.nodeAt? p).bind (nodeAt? · q) := by
  induction p generalizing n with
  | nil => rfl
  | cons i p ih =>
    simp only [List.cons_append, nodeAt?, Option.bind_assoc]
    exact Option.bind_congr fun c _ => ih c

/-- A child is smaller than its parent. -/
theorem size_lt_of_mem_childNodes {n m : Node} (h : m ∈ n.childNodes) : m.size < n.size := by
  obtain ⟨i, hm⟩ := mem_childNodes_iff.mp h
  obtain ⟨hi, ht, -⟩ := childNode?_eq_some hm
  have := Tree.size_le_sizes (ht ▸ List.getElem_mem hi)
  show m.tree.size < Tree.sizes n.children + 1
  omega

theorem properAncestors_of_mem_childNodes {n m : Node} (h : m ∈ n.childNodes) :
    m.properAncestors = n.ancestors := by
  obtain ⟨i, hm⟩ := mem_childNodes_iff.mp h
  obtain ⟨hi, ht, hv, hf⟩ := childNode?_eq_some hm
  have hc : n.children.take i ++ m.tree :: n.children.drop (i + 1) = n.children := by
    rw [← ht, List.getElem_cons_drop, List.take_append_drop]
  simp only [properAncestors, ancestors, hf, hv, enclosing, hc]

theorem ancestors_of_mem_childNodes {n m : Node} (h : m ∈ n.childNodes) :
    m.ancestors = m :: n.ancestors := by
  rw [ancestors, properAncestors_of_mem_childNodes h]

/-- The parent of a child is the node that it was taken from. -/
theorem parent?_of_mem_childNodes {n m : Node} (h : m ∈ n.childNodes) : m.parent? = some n := by
  rw [parent?, properAncestors_of_mem_childNodes h]
  rfl

/-- Recursion into the child nodes. -/
theorem childInduction {P : Node → Prop} (step : ∀ n, (∀ m ∈ n.childNodes, P m) → P n)
    (n : Node) : P n :=
  step n fun m _ => childInduction step m
termination_by n.size
decreasing_by exact size_lt_of_mem_childNodes ‹_›

end Node

end LiveEdit
