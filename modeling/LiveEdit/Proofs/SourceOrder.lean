import LiveEdit.Proofs.Position
import Mathlib.Data.List.Lex

/-!
# Source order

A walk lists a node before its children, and a child with everything below it before the next
child.  Paths have an order of their own: a path comes before the paths that go on from it, and
otherwise the smaller index at the first fork decides.

* `pairwise_path_preorder`: the nodes below a node are listed in the order of their paths.
* `nodup_path_preorder`: the list names each place once.
* `comesBefore_iff`: which of two nodes comes first can be read off their paths.
-/

namespace LiveEdit

/-- One path comes before another: it is a proper prefix, or takes the smaller index at the first
fork. -/
abbrev Path.Before (p q : Path) : Prop := List.Lex (· < ·) p q

namespace Path

theorem before_append_cons (p : Path) (i : Nat) (q : Path) : p.Before (p ++ i :: q) := by
  have hfirst : List.Lex (· < ·) (p ++ []) (p ++ i :: q) := List.Lex.append_left _ .nil p
  rwa [List.append_nil] at hfirst

theorem before_of_fork (p : Path) {i j : Nat} (hij : i < j) (q r : Path) :
    (p ++ i :: q).Before (p ++ j :: r) :=
  List.Lex.append_left _ (.rel hij) p

theorem Before.ne {p q : Path} (h : p.Before q) : p ≠ q :=
  List.Lex.to_ne (List.Lex.imp (fun _ _ => Nat.ne_of_lt) p q h)

/-- A common start does not matter. -/
theorem append_before_append_iff (s p q : Path) : (s ++ p).Before (s ++ q) ↔ p.Before q := by
  induction s with
  | nil => rfl
  | cons i s ih =>
    rw [List.cons_append, List.cons_append, Path.Before, List.lex_cons_iff]
    exact ih

/-- What comes between a path and one that goes on from it goes on from it too.  If it forked off
before the end of the path, the next step would have to go back across the fork. -/
theorem prefix_of_between {p q r : Path} (hpq : p.Before q) (hqr : q.Before r)
    (hpr : p <+: r) : p <+: q := by
  induction p generalizing q r with
  | nil => exact List.nil_prefix
  | cons i p ih =>
    obtain ⟨s, rfl⟩ := hpr
    cases hpq with
    | cons hpq =>
      rw [List.cons_append, Path.Before, List.lex_cons_iff] at hqr
      exact List.cons_prefix_cons.mpr ⟨rfl, ih hpq hqr (List.prefix_append p s)⟩
    | rel hij =>
      cases hqr with
      | cons _ => exact absurd hij (Nat.lt_irrefl i)
      | rel hji => exact absurd hij (Nat.lt_asymm hji)

end Path

namespace Node

/-! ## Indexes of children -/

theorem index_of_childNode? {n m : Node} {i : Nat} (hm : n.childNode? i = some m) :
    m.index = i := by
  obtain ⟨hi, -, -, hframes⟩ := childNode?_eq_some hm
  simp [index, hframes, Nat.min_eq_left (Nat.le_of_lt hi)]

/-- The path of a child goes one step further than the path of its parent. -/
theorem path_of_mem_childNodes {n m : Node} (hchild : m ∈ n.childNodes) :
    m.path = n.path ++ [m.index] := by
  obtain ⟨i, hi⟩ := mem_childNodes_iff.mp hchild
  rw [path_of_childNode? hi, index_of_childNode? hi]

/-- The child nodes come in the order of their indexes. -/
theorem pairwise_index_childNodes (n : Node) :
    n.childNodes.Pairwise fun a b => a.index < b.index := by
  rw [childNodes, List.pairwise_filterMap, List.pairwise_iff_getElem]
  intro i j hi hj hij a ha b hb
  have ha' : n.childNode? i = some a := by rw [childNode?, List.getElem?_eq_getElem hi]; exact ha
  have hb' : n.childNode? j = some b := by rw [childNode?, List.getElem?_eq_getElem hj]; exact hb
  rwa [index_of_childNode? ha', index_of_childNode? hb']

/-- The path of a node at or below a child goes on from the path of the parent through the
child. -/
theorem exists_path_of_mem_preorder {n m x : Node} (hchild : m ∈ n.childNodes)
    (hx : x ∈ m.preorder) : ∃ p, x.path = n.path ++ m.index :: p := by
  obtain ⟨p, hp⟩ := (mem_ancestors_iff_path.mp (mem_preorder_iff_ancestors.mp hx)).2
  rw [path_of_mem_childNodes hchild, List.append_assoc, List.singleton_append] at hp
  exact ⟨p, hp.symm⟩

/-! ## The order of a walk -/

/-- The nodes at and below a node are listed in the order of their paths.  The paths of two children
fork at their indexes, and everything below a child keeps to its side. -/
theorem pairwise_path_preorder (n : Node) :
    n.preorder.Pairwise fun a b => a.path.Before b.path := by
  induction n using childInduction with
  | step n ih =>
    rw [preorder_eq, List.pairwise_cons, List.pairwise_flatMap]
    refine ⟨?_, ih, ?_⟩
    · intro x hx
      obtain ⟨m, hm, hxm⟩ := List.mem_flatMap.mp hx
      obtain ⟨p, hp⟩ := exists_path_of_mem_preorder hm hxm
      rw [hp]
      exact Path.before_append_cons n.path m.index p
    · refine (pairwise_index_childNodes n).imp_of_mem ?_
      intro a b ha hb hlt x hx y hy
      obtain ⟨p, hp⟩ := exists_path_of_mem_preorder ha hx
      obtain ⟨q, hq⟩ := exists_path_of_mem_preorder hb hy
      rw [hp, hq]
      exact Path.before_of_fork n.path hlt p q

/-- The nodes at and below a node have different paths. -/
theorem nodup_path_preorder (n : Node) : (n.preorder.map path).Nodup :=
  List.pairwise_map.mpr ((pairwise_path_preorder n).imp Path.Before.ne)

/-- No node is listed twice. -/
theorem nodup_preorder (n : Node) : n.preorder.Nodup :=
  (pairwise_path_preorder n).imp fun hbefore heq => hbefore.ne (congrArg path heq)

/-- A node comes before everything below it. -/
theorem path_before_of_mem_properAncestors {a n : Node} (ha : a ∈ n.properAncestors) :
    a.path.Before n.path := by
  obtain ⟨habove, hne⟩ := mem_properAncestors_iff.mp ha
  obtain ⟨hroot, p, hpath⟩ := mem_ancestors_iff_path.mp habove
  cases p with
  | nil =>
    rw [List.append_nil] at hpath
    exact absurd (eq_of_root_of_path hroot hpath) hne
  | cons i p =>
    rw [← hpath]
    exact Path.before_append_cons a.path i p

/-- What comes between a node and something below it is below it too. -/
theorem mem_ancestors_of_between {a b c : Node} (hroot : a.root = b.root)
    (hab : a.path.Before b.path) (hbc : b.path.Before c.path) (hac : a ∈ c.ancestors) :
    a ∈ b.ancestors :=
  mem_ancestors_iff_path.mpr
    ⟨hroot, Path.prefix_of_between hab hbc (mem_ancestors_iff_path.mp hac).2⟩

/-- What is at and below a node stands together in the list of the nodes at and below a root. -/
theorem preorder_infix_of_mem_preorder {root n : Node} (hn : n ∈ root.preorder) :
    n.preorder <:+: root.preorder := by
  induction root using childInduction with
  | step root ih =>
    rw [preorder_eq root, List.mem_cons, List.mem_flatMap] at hn
    rcases hn with rfl | ⟨c, hc, hn⟩
    · exact List.infix_rfl
    · obtain ⟨front, back, hsplit⟩ := List.append_of_mem hc
      have hchild : c.preorder <:+: root.childNodes.flatMap preorder := by
        rw [hsplit, List.flatMap_append, List.flatMap_cons]
        exact ⟨front.flatMap preorder, back.flatMap preorder, by rw [List.append_assoc]⟩
      rw [preorder_eq root]
      exact (ih c hc hn).trans (hchild.trans (List.suffix_cons root _).isInfix)

/-- One node comes before another in the list of the nodes at and below a root. -/
def ComesBefore (root a b : Node) : Prop := [a, b].Sublist root.preorder

/-- Of two nodes below a root, the one with the earlier path comes first. -/
theorem comesBefore_iff {root a b : Node} (ha : a ∈ root.preorder) (hb : b ∈ root.preorder) :
    ComesBefore root a b ↔ a.path.Before b.path := by
  have hordered := pairwise_path_preorder root
  constructor
  · intro h
    exact List.pairwise_iff_forall_sublist.mp hordered h
  · intro h
    obtain ⟨front, back, hsplit⟩ := List.append_of_mem ha
    rw [hsplit, List.mem_append, List.mem_cons] at hb
    rcases hb with hb | rfl | hb
    · rw [hsplit, List.pairwise_append] at hordered
      exact absurd (hordered.2.2 b hb a List.mem_cons_self) (Std.Asymm.asymm _ _ h)
    · exact absurd rfl h.ne
    · rw [ComesBefore, hsplit]
      exact ((List.singleton_sublist.mpr hb).cons_cons a).trans (List.sublist_append_right front _)

end Node

end LiveEdit
