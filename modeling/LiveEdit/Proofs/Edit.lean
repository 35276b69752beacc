import LiveEdit.Proofs.Agreement

/-!
# Edits of one subtree

`Tree.replaceAt` puts a tree in the place of a subtree.  The edited tree agrees with the old one
outside the subtree (`agreeOutside_of_replaceAt`), so nothing that the analysis says about nodes
outside changes: `frame_of_edit`.
-/

namespace LiveEdit

/-- The tree with `s` in the place of the subtree that a path leads to. -/
def Tree.replaceAt (t : Tree) : Path → Tree → Tree
  | [], s => s
  | i :: q, s =>
    match t with
    | .token k text => .token k text
    | .node k cs => .node k (cs.modify i fun c => c.replaceAt q s)

/-- A node with a node put into it is a node. -/
theorem Tree.exists_replaceAt_eq (l : Kind) (ds : List Tree) (q : Path) (k : Kind)
    (cs : List Tree) : ∃ j es, (Tree.node l ds).replaceAt q (.node k cs) = .node j es := by
  cases q with
  | nil => exact ⟨k, cs, rfl⟩
  | cons i q => exact ⟨l, ds.modify i fun d => d.replaceAt q (.node k cs), rfl⟩

namespace Node

/-- The tree of a child is the child tree, unless that is a token. -/
theorem map_tree_childNode? (n : Node) (i : Nat) :
    (n.childNode? i).map tree = n.children[i]?.filter fun t => !t.isToken := by
  rw [childNode?, elements_getElem?]
  cases n.children[i]? with
  | none => rfl
  | some t => cases t <;> rfl

theorem outline_eq_of_tree_eq {a b : Node} (htree : a.tree = b.tree) : a.outline = b.outline := by
  obtain ⟨hkind, hchildren⟩ := Tree.node.inj htree
  rw [outline, outline, hkind, hchildren]

/-- Nodes with one tree have the same outlines below them. -/
theorem map_outline_nodeAt?_congr {a b : Node} (htree : a.tree = b.tree) (p : Path) :
    (a.nodeAt? p).map outline = (b.nodeAt? p).map outline := by
  induction p generalizing a b with
  | nil => exact congrArg some (outline_eq_of_tree_eq htree)
  | cons i p ih =>
    have hchild : (a.childNode? i).map tree = (b.childNode? i).map tree := by
      rw [map_tree_childNode?, map_tree_childNode?, (Tree.node.inj htree).2]
    rw [nodeAt?, nodeAt?]
    rcases none_or_some_of_map_eq hchild with ⟨ha, hb⟩ | ⟨c, d, ha, hb, hcd⟩
    · rw [ha, hb]
    · rw [ha, hb]
      exact ih hcd

section

variable {left right c : Node} {i : Nat} {q : Path} {k : Kind} {cs : List Tree}

theorem children_of_tree_eq_replaceAt
    (htree : right.tree = left.tree.replaceAt (i :: q) (.node k cs)) :
    right.children = left.children.modify i fun d => d.replaceAt q (.node k cs) :=
  (Tree.node.inj htree).2

/-- The child on the way to the edited place is edited. -/
theorem map_tree_childNode?_on_path (hc : left.childNode? i = some c)
    (htree : right.tree = left.tree.replaceAt (i :: q) (.node k cs)) :
    (right.childNode? i).map tree = some (c.tree.replaceAt q (.node k cs)) := by
  obtain ⟨hi, hctree, -, -⟩ := childNode?_eq_some hc
  obtain ⟨j, es, hnode⟩ := Tree.exists_replaceAt_eq c.kind c.children q k cs
  have hedited : right.children[i]? = some (c.tree.replaceAt q (.node k cs)) := by
    rw [children_of_tree_eq_replaceAt htree, List.getElem?_modify_eq,
      List.getElem?_eq_getElem hi, hctree]
    rfl
  rw [map_tree_childNode?, hedited, tree, hnode]
  rfl

/-- The children beside the way are as they were. -/
theorem map_tree_childNode?_off_path {j : Nat} (hj : i ≠ j)
    (htree : right.tree = left.tree.replaceAt (i :: q) (.node k cs)) :
    (right.childNode? j).map tree = (left.childNode? j).map tree := by
  rw [map_tree_childNode?, map_tree_childNode?, children_of_tree_eq_replaceAt htree,
    List.getElem?_modify_ne _ _ hj]

/-- A node above the edited place keeps its outline. -/
theorem outline_on_path (hc : left.childNode? i = some c)
    (htree : right.tree = left.tree.replaceAt (i :: q) (.node k cs)) :
    right.outline = left.outline := by
  obtain ⟨hi, hctree, -, -⟩ := childNode?_eq_some hc
  obtain ⟨l, es, hnode⟩ := Tree.exists_replaceAt_eq c.kind c.children q k cs
  have htokens : right.children.map Tree.tokenKind? = left.children.map Tree.tokenKind? := by
    rw [children_of_tree_eq_replaceAt htree]
    apply List.ext_getElem?
    intro j
    rw [List.getElem?_map, List.getElem?_map]
    by_cases hj : i = j
    · subst hj
      rw [List.getElem?_modify_eq, List.getElem?_eq_getElem hi, hctree]
      show some (c.tree.replaceAt q (.node k cs)).tokenKind? = some c.tree.tokenKind?
      rw [tree, hnode]
      rfl
    · rw [List.getElem?_modify_ne _ _ hj]
  rw [outline, outline, htokens, (Tree.node.inj htree).1]

end

/-- After an edit, the trees agree outside the edited subtree. -/
theorem agreeOutside_of_replaceAt {left right edited : Node} {q : Path} {k : Kind}
    {cs : List Tree} (hq : left.nodeAt? q = some edited)
    (htree : right.tree = left.tree.replaceAt q (.node k cs)) :
    AgreeOutside (q <+: ·) left right := by
  induction q generalizing left right with
  | nil =>
    intro p hp
    exact absurd List.nil_prefix hp
  | cons i q ih =>
    obtain ⟨c, hc, hcq⟩ := Option.bind_eq_some_iff.mp hq
    intro p hp
    cases p with
    | nil => exact congrArg some (outline_on_path hc htree).symm
    | cons j p =>
      by_cases hj : i = j
      · subst hj
        have hvisible : ¬ q <+: p := fun h => hp (List.cons_prefix_cons.mpr ⟨rfl, h⟩)
        obtain ⟨d, hd, hdtree⟩ :=
          Option.map_eq_some_iff.mp (map_tree_childNode?_on_path hc htree)
        rw [nodeAt?_cons hc, nodeAt?_cons hd]
        exact ih hcq hdtree p hvisible
      · rw [nodeAt?, nodeAt?]
        rcases none_or_some_of_map_eq (map_tree_childNode?_off_path hj htree) with
          ⟨hr, hl⟩ | ⟨b, a, hr, hl, hab⟩
        · rw [hl, hr]
        · rw [hl, hr]
          exact map_outline_nodeAt?_congr hab.symm p

/-- The edited place holds the new tree. -/
theorem exists_nodeAt?_of_replaceAt {left right edited : Node} {q : Path} {k : Kind}
    {cs : List Tree} (hq : left.nodeAt? q = some edited)
    (htree : right.tree = left.tree.replaceAt q (.node k cs)) :
    ∃ c, right.nodeAt? q = some c ∧ c.tree = .node k cs := by
  induction q generalizing left right with
  | nil => exact ⟨right, rfl, htree⟩
  | cons i q ih =>
    obtain ⟨c, hc, hcq⟩ := Option.bind_eq_some_iff.mp hq
    obtain ⟨d, hd, hdtree⟩ := Option.map_eq_some_iff.mp (map_tree_childNode?_on_path hc htree)
    rw [nodeAt?_cons hd]
    exact ih hcq hdtree

theorem frames_of_plant? {t : Tree} {version : Nat} {n : Node}
    (hplant : t.plant? version = some n) : n.frames = [] := by
  cases t with
  | token k text => cases hplant
  | node k cs => rw [← Option.some.inj hplant]

theorem tree_of_plant? {t : Tree} {version : Nat} {n : Node}
    (hplant : t.plant? version = some n) : n.tree = t := by
  cases t with
  | token k text => cases hplant
  | node k cs =>
    rw [← Option.some.inj hplant]
    rfl

/-- What is below an edited place is below it in every longer path. -/
theorem hidesBelow_prefix (q : Path) : HidesBelow (q <+: ·) :=
  fun _ _ hp hbelow => hp.trans hbelow

/-! ## What an edit leaves as it was -/

/-- An edit of one subtree changes nothing outside it.  Every node outside still stands at its
path.  The suspension points that it had outside the subtree are the same, in the same order.  A
node with text finds its partner there, however far the edit moves the text. -/
theorem frame_of_edit {t : Tree} {version version' : Nat} {left right edited : Node} {q : Path}
    {k : Kind} {cs : List Tree} (hleft : t.plant? version = some left)
    (hq : left.nodeAt? q = some edited)
    (hright : (t.replaceAt q (.node k cs)).plant? version' = some right) :
    ∀ n ∈ left.preorder, ¬ q <+: n.path →
      ∃ m, right.nodeAt? n.path = some m ∧
        (n.suspensionPoints.value.filter fun s => ¬ q <+: s.node.path).map SuspensionPoint.place =
          (m.suspensionPoints.value.filter fun s => ¬ q <+: s.node.path).map
            SuspensionPoint.place ∧
        (n.width ≠ 0 → left.partner right n = .ok (some m)) := by
  have htree : right.tree = left.tree.replaceAt q (.node k cs) := by
    rw [tree_of_plant? hright, tree_of_plant? hleft]
  have hagree := agreeOutside_of_replaceAt hq htree
  have hbelow := hidesBelow_prefix q
  intro n hn hvisible
  obtain ⟨p, hp⟩ := mem_preorder_iff.mp hn
  rw [path_of_frames_nil_of_nodeAt? (frames_of_plant? hleft) hp] at hvisible ⊢
  obtain ⟨m, hm⟩ := hagree.exists_right hvisible hp
  refine ⟨m, hm, ?_, ?_⟩
  · exact hagree.resumePoints_eq hbelow (frames_of_plant? hleft) (frames_of_plant? hright) hp hm
  · exact hagree.partner_eq hbelow hvisible hp hm

/-- A block that takes the place of a statement moves the `await` behind it by one byte, and the
statement around the `await` still finds its partner and its suspension point. -/
theorem frame_of_edit_before_await :
    let name := Tree.node .identifierName [.token .identifier "a"]
    let await := Tree.node .awaitExpression [.token .awaitKw "await", name]
    let t :=
      Tree.node .block [.node .expressionStatement [name], .node .expressionStatement [await]]
    let braces := [Tree.token .lBrace "\x7b", .token .rBrace "\x7d"]
    let left : Node :=
      ⟨0, .block, [.node .expressionStatement [name], .node .expressionStatement [await]], []⟩
    let right : Node :=
      ⟨1, .block, [.node .block braces, .node .expressionStatement [await]], []⟩
    let statement : Node :=
      ⟨0, .expressionStatement, [await], [⟨.block, [.node .expressionStatement [name]], []⟩]⟩
    let moved : Node := ⟨1, .expressionStatement, [await], [⟨.block, [.node .block braces], []⟩]⟩
    t.plant? 0 = some left ∧ (t.replaceAt [0] (.node .block braces)).plant? 1 = some right ∧
      statement.start = 1 ∧ moved.start = 2 ∧ left.partner right statement = .ok (some moved) ∧
      (moved.suspensionPoints.value.filter fun s => ¬ [0] <+: s.node.path).map
        SuspensionPoint.place = [([1, 0], .awaitExpression)] := by
  intro name await t braces left right statement moved
  have hleft : t.plant? 0 = some left := rfl
  have hq : left.nodeAt? [0] = some _ := rfl
  have hright : (t.replaceAt [0] (.node .block braces)).plant? 1 = some right := rfl
  have hmem : statement ∈ left.preorder := mem_preorder_iff.mpr ⟨[1], rfl⟩
  obtain ⟨m, hm, hpoints, hpartner⟩ := frame_of_edit hleft hq hright statement hmem (by decide)
  obtain rfl : moved = m := Option.some.inj hm
  refine ⟨hleft, hright, by decide, by decide, hpartner (by decide), ?_⟩
  rw [← hpoints]
  decide +kernel

end Node

end LiveEdit
