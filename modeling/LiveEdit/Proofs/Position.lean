import LiveEdit.Syntax.Walk

/-!
# Positions

A node is known by the root of its tree and its path: `eq_of_root_of_path`.  So questions about
ancestors are questions about prefixes of paths.

* `root` is the topmost node, and `nodeAt?_path` leads from it back down to the node.
* `ancestorInduction` goes up from a node to its root.
* `mem_ancestors_iff` and `mem_ancestors_iff_path` describe the nodes above a node by paths, and
  `mem_properAncestors_iff` leaves out the node itself.
* `mem_preorder_iff_ancestors` turns "at or below" into "at or above".
-/

namespace LiveEdit.Node

/-! ## Roots -/

/-- The root of the tree that a node belongs to. -/
def root (n : Node) : Node := n.properAncestors.getLast?.getD n

/-- A node with a frame around it is a child of the node that the frame describes. -/
theorem exists_parent {n : Node} (hframes : n.frames ≠ []) : ∃ p : Node, n ∈ p.childNodes := by
  obtain ⟨version, kind, children, frames⟩ := n
  cases frames with
  | nil => exact absurd rfl hframes
  | cons f fs =>
    refine ⟨⟨version, f.kind, f.before ++ .node kind children :: f.after, fs⟩, ?_⟩
    apply mem_childNodes_of_childNode? (i := f.before.length)
    rw [childNode?, elements_getElem?]
    simp [element, Element.node?]

/-- A child has one frame more than its parent. -/
theorem length_frames_of_mem_childNodes {n m : Node} (hchild : m ∈ n.childNodes) :
    m.frames.length = n.frames.length + 1 := by
  obtain ⟨i, hi⟩ := mem_childNodes_iff.mp hchild
  obtain ⟨-, -, -, hframes⟩ := childNode?_eq_some hi
  rw [hframes, List.length_cons]

/-- Induction from the root of a tree down to a node. -/
theorem ancestorInduction {P : Node → Prop} (root : ∀ n, n.frames = [] → P n)
    (child : ∀ n m, m ∈ n.childNodes → P n → P m) (n : Node) : P n := by
  by_cases hframes : n.frames = []
  · exact root n hframes
  · have hparent := exists_parent hframes
    have hchild := hparent.choose_spec
    exact child _ n hchild (ancestorInduction root child _)
termination_by n.frames.length
decreasing_by
  have := length_frames_of_mem_childNodes hchild
  omega

theorem properAncestors_of_frames_nil {n : Node} (hframes : n.frames = []) :
    n.properAncestors = [] := by
  rw [properAncestors, hframes, enclosing]

theorem root_of_frames_nil {n : Node} (hframes : n.frames = []) : n.root = n := by
  rw [root, properAncestors_of_frames_nil hframes]
  rfl

theorem root_of_mem_childNodes {n m : Node} (hchild : m ∈ n.childNodes) : m.root = n.root := by
  rw [root, properAncestors_of_mem_childNodes hchild, ancestors, List.getLast?_cons,
    Option.getD_some, root]

/-- The root of a tree stands in no frame. -/
theorem frames_root (n : Node) : n.root.frames = [] := by
  induction n using ancestorInduction with
  | root n hframes => rw [root_of_frames_nil hframes, hframes]
  | child n m hchild ih => rw [root_of_mem_childNodes hchild, ih]

theorem path_of_frames_nil {n : Node} (hframes : n.frames = []) : n.path = [] := by
  rw [path, hframes]
  rfl

/-- The path from the root to a node is the node's path. -/
theorem path_of_frames_nil_of_nodeAt? {n m : Node} {p : Path} (hframes : n.frames = [])
    (hm : n.nodeAt? p = some m) : m.path = p := by
  rw [path_of_nodeAt? hm, path_of_frames_nil hframes, List.nil_append]

/-- Going down stays in the tree. -/
theorem root_of_nodeAt? {n m : Node} {p : Path} (hm : n.nodeAt? p = some m) :
    m.root = n.root := by
  induction p generalizing n with
  | nil => rw [Option.some.inj hm]
  | cons i p ih =>
    obtain ⟨c, hc, hcm⟩ := Option.bind_eq_some_iff.mp hm
    rw [ih hcm, root_of_mem_childNodes (mem_childNodes_of_childNode? hc)]

/-- Going down stays in the version. -/
theorem version_of_nodeAt? {n m : Node} {p : Path} (hm : n.nodeAt? p = some m) :
    m.version = n.version := by
  induction p generalizing n with
  | nil => rw [Option.some.inj hm]
  | cons i p ih =>
    obtain ⟨c, hc, hcm⟩ := Option.bind_eq_some_iff.mp hm
    obtain ⟨-, -, hversion, -⟩ := childNode?_eq_some hc
    rw [ih hcm, hversion]

/-! ## The way down to a node -/

theorem nodeAt?_singleton (n : Node) (i : Nat) : n.nodeAt? [i] = n.childNode? i := by
  simp [nodeAt?]

/-- One step further down. -/
theorem nodeAt?_concat (n : Node) (p : Path) (i : Nat) :
    n.nodeAt? (p ++ [i]) = (n.nodeAt? p).bind (·.childNode? i) := by
  rw [nodeAt?_append]
  exact Option.bind_congr fun c _ => nodeAt?_singleton c i

/-- One path leads down to a node. -/
theorem nodeAt?_injective {n m : Node} {p q : Path} (hp : n.nodeAt? p = some m)
    (hq : n.nodeAt? q = some m) : p = q := by
  have hpath := path_of_nodeAt? hp
  rw [path_of_nodeAt? hq] at hpath
  exact (List.append_cancel_left hpath).symm

/-- On the way down to a node, every prefix of the path leads to a node. -/
theorem exists_nodeAt?_of_prefix {n m : Node} {p q : Path} (hm : n.nodeAt? p = some m)
    (hbelow : q <+: p) : ∃ a, n.nodeAt? q = some a := by
  obtain ⟨r, rfl⟩ := hbelow
  rw [nodeAt?_append] at hm
  obtain ⟨a, ha, -⟩ := Option.bind_eq_some_iff.mp hm
  exact ⟨a, ha⟩

/-- The nodes above a node at a path are followed by the nodes above the start. -/
theorem ancestors_suffix_of_nodeAt? {n m : Node} {p : Path} (hm : n.nodeAt? p = some m) :
    n.ancestors <:+ m.ancestors := by
  induction p generalizing n with
  | nil =>
    obtain rfl := Option.some.inj hm
    exact List.suffix_refl n.ancestors
  | cons i p ih =>
    obtain ⟨c, hc, hcm⟩ := Option.bind_eq_some_iff.mp hm
    have hsuffix := ih hcm
    rw [ancestors_of_mem_childNodes (mem_childNodes_of_childNode? hc)] at hsuffix
    exact (List.suffix_cons c n.ancestors).trans hsuffix

theorem mem_ancestors_self (n : Node) : n ∈ n.ancestors := List.mem_cons_self

/-- The nodes at and above a node are those from which a path leads down to it. -/
theorem mem_ancestors_iff {a n : Node} : a ∈ n.ancestors ↔ ∃ p, a.nodeAt? p = some n := by
  constructor
  · intro ha
    induction n using ancestorInduction with
    | root n hframes =>
      rw [ancestors, properAncestors_of_frames_nil hframes, List.mem_singleton] at ha
      exact ⟨[], congrArg some ha⟩
    | child n m hchild ih =>
      rw [ancestors_of_mem_childNodes hchild, List.mem_cons] at ha
      rcases ha with rfl | ha
      · exact ⟨[], rfl⟩
      · obtain ⟨p, hp⟩ := ih ha
        obtain ⟨i, hi⟩ := mem_childNodes_iff.mp hchild
        refine ⟨p ++ [i], ?_⟩
        rw [nodeAt?_concat, hp, Option.bind_some, hi]
  · intro h
    rcases h with ⟨p, hp⟩
    exact (ancestors_suffix_of_nodeAt? hp).subset (mem_ancestors_self a)

/-- The root stands above every node of its tree. -/
theorem root_mem_ancestors (n : Node) : n.root ∈ n.ancestors := by
  induction n using ancestorInduction with
  | root n hframes =>
    rw [root_of_frames_nil hframes]
    exact mem_ancestors_self n
  | child n m hchild ih =>
    rw [root_of_mem_childNodes hchild, ancestors_of_mem_childNodes hchild]
    exact List.mem_cons_of_mem m ih

/-- The root leads down to a node along the node's path. -/
theorem nodeAt?_path (n : Node) : n.root.nodeAt? n.path = some n := by
  obtain ⟨p, hp⟩ := mem_ancestors_iff.mp (root_mem_ancestors n)
  have hpath := path_of_nodeAt? hp
  rw [path_of_frames_nil (frames_root n), List.nil_append] at hpath
  rw [hpath, hp]

/-- A node is determined by its tree and its path. -/
theorem eq_of_root_of_path {a b : Node} (hroot : a.root = b.root) (hpath : a.path = b.path) :
    a = b := by
  have ha := nodeAt?_path a
  rw [hroot, hpath, nodeAt?_path b] at ha
  exact (Option.some.inj ha).symm

/-! ## Ancestors as prefixes -/

/-- The nodes at and above a node are those of its tree whose path is a prefix of its path. -/
theorem mem_ancestors_iff_path {a n : Node} :
    a ∈ n.ancestors ↔ a.root = n.root ∧ a.path <+: n.path := by
  rw [mem_ancestors_iff]
  constructor
  · intro h
    rcases h with ⟨p, hp⟩
    refine ⟨(root_of_nodeAt? hp).symm, p, (path_of_nodeAt? hp).symm⟩
  · intro h
    rcases h with ⟨hroot, p, hpath⟩
    have hn := nodeAt?_path n
    rw [← hpath, ← hroot, nodeAt?_append, nodeAt?_path a] at hn
    exact ⟨p, hn⟩

/-- Below a common start, the nodes at and above a node are those at the prefixes of its path. -/
theorem mem_ancestors_iff_of_nodeAt? {n a b : Node} {p q : Path} (ha : n.nodeAt? p = some a)
    (hb : n.nodeAt? q = some b) : a ∈ b.ancestors ↔ p <+: q := by
  rw [mem_ancestors_iff_path, root_of_nodeAt? ha, root_of_nodeAt? hb, path_of_nodeAt? ha,
    path_of_nodeAt? hb, List.prefix_append_right_inj]
  exact and_iff_right rfl

/-- A node whose path is a prefix of another node's path is above that node. -/
theorem mem_ancestors_of_prefix {n a b : Node} {p q : Path} (ha : n.nodeAt? p = some a)
    (hb : n.nodeAt? q = some b) (hpath : p <+: q) : a ∈ b.ancestors :=
  (mem_ancestors_iff_of_nodeAt? ha hb).mpr hpath

theorem mem_ancestors_trans {a b c : Node} (hab : a ∈ b.ancestors) (hbc : b ∈ c.ancestors) :
    a ∈ c.ancestors := by
  rw [mem_ancestors_iff_path] at hab hbc ⊢
  exact ⟨hab.1.trans hbc.1, hab.2.trans hbc.2⟩

theorem mem_ancestors_antisymm {a b : Node} (hab : a ∈ b.ancestors) (hba : b ∈ a.ancestors) :
    a = b := by
  rw [mem_ancestors_iff_path] at hab hba
  exact eq_of_root_of_path hab.1 (hab.2.eq_of_length_le hba.2.length_le)

/-- Of two nodes above a third, one is above the other. -/
theorem mem_ancestors_total {a b n : Node} (ha : a ∈ n.ancestors) (hb : b ∈ n.ancestors) :
    a ∈ b.ancestors ∨ b ∈ a.ancestors := by
  rw [mem_ancestors_iff_path] at ha hb
  rcases List.prefix_or_prefix_of_prefix ha.2 hb.2 with hab | hba
  · exact .inl (mem_ancestors_iff_path.mpr ⟨ha.1.trans hb.1.symm, hab⟩)
  · exact .inr (mem_ancestors_iff_path.mpr ⟨hb.1.trans ha.1.symm, hba⟩)

theorem mem_ancestors_of_mem_childNodes {n m : Node} (hchild : m ∈ n.childNodes) :
    n ∈ m.ancestors := by
  rw [ancestors_of_mem_childNodes hchild]
  exact List.mem_cons_of_mem m (mem_ancestors_self n)

/-- The nodes strictly above a node are those above it that are not the node.  A node is not strictly
above itself: its parent is above it, so it is not above its parent. -/
theorem mem_properAncestors_iff {a n : Node} :
    a ∈ n.properAncestors ↔ a ∈ n.ancestors ∧ a ≠ n := by
  rw [ancestors, List.mem_cons]
  constructor
  · intro ha
    refine ⟨.inr ha, ?_⟩
    intro h
    subst h
    by_cases hframes : a.frames = []
    · rw [properAncestors_of_frames_nil hframes] at ha
      cases ha
    · obtain ⟨p, hchild⟩ := exists_parent hframes
      rw [properAncestors_of_mem_childNodes hchild] at ha
      have hsame := mem_ancestors_antisymm ha (mem_ancestors_of_mem_childNodes hchild)
      have hlength := length_frames_of_mem_childNodes hchild
      rw [hsame] at hlength
      omega
  · intro h
    rcases h with ⟨rfl | ha, hne⟩
    · exact absurd rfl hne
    · exact ha

/-- The nodes at and above a node come innermost first. -/
theorem pairwise_ancestors (n : Node) :
    n.ancestors.Pairwise fun inner outer => outer ∈ inner.properAncestors := by
  induction n using ancestorInduction with
  | root n hframes =>
    rw [ancestors, properAncestors_of_frames_nil hframes]
    exact List.pairwise_singleton _ n
  | child n m hchild ih =>
    rw [ancestors_of_mem_childNodes hchild, List.pairwise_cons]
    refine ⟨?_, ih⟩
    intro a ha
    rwa [properAncestors_of_mem_childNodes hchild]

/-- Nothing stands strictly between a node and its child. -/
theorem not_between_of_mem_childNodes {n c x : Node} (hchild : c ∈ n.childNodes)
    (hx : x ∈ c.properAncestors) : n ∉ x.properAncestors := by
  intro hn
  rw [properAncestors_of_mem_childNodes hchild] at hx
  obtain ⟨habove, hne⟩ := mem_properAncestors_iff.mp hn
  exact hne (mem_ancestors_antisymm habove hx)

/-- Only its child stands strictly between a node and a child of the child. -/
theorem eq_of_between {n a c x : Node} (ha : a ∈ n.childNodes) (hc : c ∈ a.childNodes)
    (hx : x ∈ c.properAncestors) (hn : n ∈ x.properAncestors) : x = a := by
  rw [properAncestors_of_mem_childNodes hc, ancestors, List.mem_cons] at hx
  rcases hx with hx | hx
  · exact hx
  · exact absurd hn (not_between_of_mem_childNodes ha hx)

/-- The way up leads to the node that the way down came from. -/
theorem mem_childNodes_of_parent? {n p : Node} (hparent : n.parent? = some p) :
    n ∈ p.childNodes := by
  by_cases hframes : n.frames = []
  · rw [parent?, properAncestors_of_frames_nil hframes] at hparent
    cases hparent
  · obtain ⟨q, hchild⟩ := exists_parent hframes
    rw [parent?_of_mem_childNodes hchild, Option.some.injEq] at hparent
    rwa [← hparent]

theorem mem_properAncestors_of_mem_childNodes {n c : Node} (hchild : c ∈ n.childNodes) :
    n ∈ c.properAncestors := by
  rw [properAncestors_of_mem_childNodes hchild]
  exact mem_ancestors_self n

/-- Strictly above what is above is strictly above. -/
theorem mem_properAncestors_trans {a b c : Node} (hab : a ∈ b.properAncestors)
    (hbc : b ∈ c.ancestors) : a ∈ c.properAncestors := by
  obtain ⟨habove, hne⟩ := mem_properAncestors_iff.mp hab
  refine mem_properAncestors_iff.mpr ⟨mem_ancestors_trans habove hbc, ?_⟩
  intro h
  subst h
  exact hne (mem_ancestors_antisymm habove hbc)

theorem root_of_mem_ancestors {a n : Node} (ha : a ∈ n.ancestors) : a.root = n.root :=
  (mem_ancestors_iff_path.mp ha).1

/-- A node is at or below another if the other is at or above it. -/
theorem mem_preorder_iff_ancestors {n m : Node} : m ∈ n.preorder ↔ n ∈ m.ancestors := by
  rw [mem_preorder_iff, mem_ancestors_iff]

theorem mem_preorder_root {a n : Node} (ha : a ∈ n.ancestors) : a ∈ n.root.preorder := by
  rw [mem_preorder_iff_ancestors, ← root_of_mem_ancestors ha]
  exact root_mem_ancestors a

theorem mem_preorder_of_mem_childNodes {root n m : Node} (hn : n ∈ root.preorder)
    (hchild : m ∈ n.childNodes) : m ∈ root.preorder := by
  rw [mem_preorder_iff_ancestors] at hn ⊢
  exact mem_ancestors_trans hn (mem_ancestors_of_mem_childNodes hchild)

/-- In a whole tree, a path leads to the node that has this path. -/
theorem nodeAt?_eq_some_iff {root n : Node} {p : Path} (hroot : root.frames = []) :
    root.nodeAt? p = some n ↔ n ∈ root.preorder ∧ n.path = p := by
  constructor
  · intro hn
    exact ⟨mem_preorder_iff.mpr ⟨p, hn⟩, path_of_frames_nil_of_nodeAt? hroot hn⟩
  · intro h
    rcases h with ⟨hn, hpath⟩
    obtain ⟨q, hq⟩ := mem_preorder_iff.mp hn
    rwa [← hpath, path_of_frames_nil_of_nodeAt? hroot hq]

end LiveEdit.Node
