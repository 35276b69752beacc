import LiveEdit.Syntax.Identity
import LiveEdit.Proofs.Position

/-!
# Extents

The children of a node tile its range: each one starts where the one before it ends.  It follows
that of two nodes of a tree one holds the other, or one ends before the other starts.

* `range_of_getElem?` gives the range of a child by the widths of the children before it.
* `within_of_nodeAt?` says that a node lies inside every node above it.
* `nested_or_apart` is the law for two nodes below a third.
* `same_iff` says which nodes of one tree are the same, and `eq_of_same` that a node that covers text
  is the same only as itself.
-/

namespace LiveEdit

namespace Tree

/-! ## Widths of the first trees of a list -/

theorem widths_take_succ {ts : List Tree} {i : Nat} {t : Tree} (ht : ts[i]? = some t) :
    widths (ts.take (i + 1)) = widths (ts.take i) + t.width := by
  rw [List.take_add_one, ht, widths_append]
  simp [widths]

theorem widths_take_le_of_le (ts : List Tree) {i j : Nat} (hij : i ≤ j) :
    widths (ts.take i) ≤ widths (ts.take j) := by
  have hsplit : (ts.take j).take i ++ (ts.take j).drop i = ts.take j :=
    List.take_append_drop i (ts.take j)
  rw [← hsplit, widths_append, List.take_take, Nat.min_eq_left hij]
  omega

theorem widths_take_le (ts : List Tree) (i : Nat) : widths (ts.take i) ≤ widths ts := by
  by_cases hi : i ≤ ts.length
  · have hle := widths_take_le_of_le ts hi
    rwa [List.take_length] at hle
  · have htake : ts.take i = ts := List.take_of_length_le (by omega)
    exact Nat.le_of_eq (congrArg widths htake)

end Tree

namespace Node

/-! ## Children tile a node -/

theorem width_eq_widths (n : Node) : n.width = Tree.widths n.children := rfl

theorem start_le_stop (n : Node) : n.start ≤ n.stop := Nat.le_add_right n.start n.width

/-- The range of a child, by the widths of the children before it. -/
theorem range_of_getElem? {n : Node} {i : Nat} {e : Element} (he : n.elements[i]? = some e) :
    e.range.start = n.start + Tree.widths (n.children.take i) ∧
      e.range.stop = n.start + Tree.widths (n.children.take (i + 1)) := by
  rw [elements_getElem?, Option.map_eq_some_iff] at he
  obtain ⟨t, ht, rfl⟩ := he
  rw [Tree.widths_take_succ ht]
  cases t with
  | token k s =>
    constructor
    · rfl
    · show n.start + Tree.widths (n.children.take i) + s.utf8ByteSize = _
      rw [Nat.add_assoc]
      rfl
  | node k cs =>
    constructor
    · rfl
    · show n.start + Tree.widths (n.children.take i) + Tree.widths cs = _
      rw [Nat.add_assoc]
      rfl

theorem getElem?_elements_of_childNode? {n c : Node} {i : Nat} (hc : n.childNode? i = some c) :
    n.elements[i]? = some (.node c) := by
  obtain ⟨e, he, hnode⟩ := Option.bind_eq_some_iff.mp hc
  cases e with
  | token t => cases hnode
  | node m => rw [he, Option.some.inj hnode]

/-- A child ends behind its parent's first children and itself. -/
theorem stop_of_childNode? {n c : Node} {i : Nat} (hc : n.childNode? i = some c) :
    c.stop = n.start + Tree.widths (n.children.take (i + 1)) :=
  (range_of_getElem? (getElem?_elements_of_childNode? hc)).2

/-- A child lies inside its parent. -/
theorem within_of_childNode? {n c : Node} {i : Nat} (hc : n.childNode? i = some c) :
    n.start ≤ c.start ∧ c.stop ≤ n.stop := by
  have hle := Tree.widths_take_le n.children (i + 1)
  rw [start_of_childNode? hc, stop_of_childNode? hc, stop, width_eq_widths]
  omega

/-- A node lies inside every node above it. -/
theorem within_of_nodeAt? {n m : Node} {p : Path} (hm : n.nodeAt? p = some m) :
    n.start ≤ m.start ∧ m.stop ≤ n.stop := by
  induction p generalizing n with
  | nil =>
    rw [Option.some.inj hm]
    omega
  | cons i p ih =>
    obtain ⟨c, hc, hcm⟩ := Option.bind_eq_some_iff.mp hm
    have hchild := within_of_childNode? hc
    have hbelow := ih hcm
    omega

theorem within_of_mem_ancestors {a n : Node} (ha : a ∈ n.ancestors) :
    a.start ≤ n.start ∧ n.stop ≤ a.stop := by
  obtain ⟨p, hp⟩ := mem_ancestors_iff.mp ha
  exact within_of_nodeAt? hp

theorem within_of_mem_preorder {n m : Node} (hm : m ∈ n.preorder) :
    n.start ≤ m.start ∧ m.stop ≤ n.stop :=
  within_of_mem_ancestors (mem_preorder_iff_ancestors.mp hm)

/-- What holds a node that covers text covers text. -/
theorem width_ne_zero_of_mem_ancestors {a n : Node} (ha : a ∈ n.ancestors) (hn : n.width ≠ 0) :
    a.width ≠ 0 := by
  have hwithin := within_of_mem_ancestors ha
  simp only [stop] at hwithin
  omega

/-- A child ends before every later child starts. -/
theorem stop_le_start_of_lt {n a b : Node} {i j : Nat} (hij : i < j)
    (ha : n.childNode? i = some a) (hb : n.childNode? j = some b) : a.stop ≤ b.start := by
  have hle := Tree.widths_take_le_of_le n.children (show i + 1 ≤ j by omega)
  rw [stop_of_childNode? ha, start_of_childNode? hb]
  omega

/-- Of two nodes below a third, one is above the other, or one ends before the other starts. -/
theorem nested_or_apart {n a b : Node} {p q : Path} (ha : n.nodeAt? p = some a)
    (hb : n.nodeAt? q = some b) :
    p <+: q ∨ q <+: p ∨ a.stop ≤ b.start ∨ b.stop ≤ a.start := by
  induction p generalizing n q with
  | nil => exact .inl List.nil_prefix
  | cons i p ih =>
    cases q with
    | nil => exact .inr (.inl List.nil_prefix)
    | cons j q =>
      obtain ⟨c, hc, hca⟩ := Option.bind_eq_some_iff.mp ha
      obtain ⟨d, hd, hdb⟩ := Option.bind_eq_some_iff.mp hb
      have hinc := within_of_nodeAt? hca
      have hind := within_of_nodeAt? hdb
      rcases Nat.lt_trichotomy i j with hij | rfl | hij
      · have hapart := stop_le_start_of_lt hij hc hd
        exact .inr (.inr (.inl (by omega)))
      · rw [hc, Option.some.injEq] at hd
        subst hd
        rcases ih hca hdb with hpq | hqp | happart
        · exact .inl (List.cons_prefix_cons.mpr ⟨rfl, hpq⟩)
        · exact .inr (.inl (List.cons_prefix_cons.mpr ⟨rfl, hqp⟩))
        · exact .inr (.inr happart)
      · have hapart := stop_le_start_of_lt hij hd hc
        exact .inr (.inr (.inr (by omega)))

/-! ## Stored copies -/

theorem size_le_of_nodeAt? {n m : Node} {p : Path} (hm : n.nodeAt? p = some m) :
    m.size ≤ n.size := by
  induction p generalizing n with
  | nil =>
    obtain rfl := Option.some.inj hm
    exact Nat.le_refl n.size
  | cons i p ih =>
    obtain ⟨c, hc, hcm⟩ := Option.bind_eq_some_iff.mp hm
    have hlt := size_lt_of_mem_childNodes (mem_childNodes_of_childNode? hc)
    have hle := ih hcm
    omega

/-- A node above another shows a larger subtree, unless the two are one node. -/
theorem eq_of_mem_ancestors_of_tree_eq {a n : Node} (ha : a ∈ n.ancestors)
    (htree : a.tree = n.tree) : a = n := by
  obtain ⟨p, hp⟩ := mem_ancestors_iff.mp ha
  cases p with
  | nil => exact Option.some.inj hp
  | cons i p =>
    obtain ⟨c, hc, hcn⟩ := Option.bind_eq_some_iff.mp hp
    have hlt := size_lt_of_mem_childNodes (mem_childNodes_of_childNode? hc)
    have hle := size_le_of_nodeAt? hcn
    have heq : a.size = n.size := by rw [size, size, htree]
    omega

/-- In one tree, two nodes are the same if and only if they start at one place and show one subtree,
and if the subtree is narrow or the nodes stand at one path. -/
theorem same_iff {a b : Node} (hroot : a.root = b.root) :
    a.Same b ↔ a.start = b.start ∧ a.tree = b.tree ∧
      (a.tree.narrow = true ∨ a.path = b.path) := by
  constructor
  · rintro ⟨hstart, hstorage⟩
    unfold storage at hstorage
    split at hstorage <;> split at hstorage
    next hnarrow _ => exact ⟨hstart, (Storage.shared.inj hstorage).2, .inl hnarrow⟩
    next => cases hstorage
    next => cases hstorage
    next =>
      have hpath := (Storage.own.inj hstorage).2
      exact ⟨hstart, congrArg tree (eq_of_root_of_path hroot hpath), .inr hpath⟩
  · rintro ⟨hstart, htree, hnarrow | hpath⟩
    · have hversion : a.version = b.version := by
        rw [version_of_nodeAt? (nodeAt?_path a), hroot, ← version_of_nodeAt? (nodeAt?_path b)]
      refine ⟨hstart, ?_⟩
      rw [storage, storage, if_pos hnarrow, if_pos (htree ▸ hnarrow), hversion, htree]
    · rw [eq_of_root_of_path hroot hpath]

/-- No node is the same as one strictly above it. -/
theorem not_same_of_mem_properAncestors {a n : Node} (ha : a ∈ n.properAncestors) :
    ¬ a.Same n := by
  intro hsame
  obtain ⟨habove, hne⟩ := mem_properAncestors_iff.mp ha
  obtain ⟨-, htree, -⟩ := (same_iff (root_of_mem_ancestors habove)).mp hsame
  exact hne (eq_of_mem_ancestors_of_tree_eq habove htree)

/-- In one tree, a node that covers text is the same only as itself. -/
theorem eq_of_same {a b : Node} (hroot : a.root = b.root) (hsame : a.Same b)
    (hwidth : a.width ≠ 0) : a = b := by
  obtain ⟨hstart, htree, -⟩ := (same_iff hroot).mp hsame
  have hwidthb : b.width = a.width := by rw [width, width, htree]
  have hb : a.root.nodeAt? b.path = some b := hroot ▸ nodeAt?_path b
  rcases nested_or_apart (nodeAt?_path a) hb with hab | hba | hapart | hapart
  · exact eq_of_mem_ancestors_of_tree_eq (mem_ancestors_iff_path.mpr ⟨hroot, hab⟩) htree
  · have habove : b ∈ a.ancestors := mem_ancestors_iff_path.mpr ⟨hroot.symm, hba⟩
    exact (eq_of_mem_ancestors_of_tree_eq habove htree.symm).symm
  · rw [stop] at hapart
    omega
  · rw [stop] at hapart
    omega

end Node

end LiveEdit
