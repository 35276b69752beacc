import LiveEdit.Proofs.Bodies

/-!
# Identity and position

A narrow subtree is stored once in a document version, so two nodes at different paths can be the
same.  This happens to nodes without text only, and only where they stand side by side.

* `same_iff` of `Proofs.Extent` says which nodes of one tree are the same.
* `width_eq_zero_of_same`: at different paths, only nodes without text are.
* `sameness_is_position`: neither of two such nodes is above the other, and what a body holds is
  what lies at and below it, as long as text is involved.
-/

namespace LiveEdit

theorem Node.isEmpty_range_iff {n : Node} : n.range.isEmpty = true ↔ n.width = 0 := by
  rw [Range.isEmpty, beq_iff_eq]
  show n.start = n.start + n.width ↔ n.width = 0
  omega

theorem Node.isEmpty_range_eq_false_iff {n : Node} : n.range.isEmpty = false ↔ n.width ≠ 0 := by
  rw [← Bool.not_eq_true, isEmpty_range_iff]

/-- In one tree, nodes that are the same and stand at different paths have no text. -/
theorem Node.width_eq_zero_of_same {a c : Node} (hroot : a.root = c.root) (hpath : a.path ≠ c.path)
    (hsame : a.Same c) : a.width = 0 := by
  by_cases hwidth : a.width = 0
  · exact hwidth
  · exact absurd (congrArg path (eq_of_same hroot hsame hwidth)) hpath

/-- Take any tree.  If two nodes at different paths of it are the same, then both are empty and
neither is above the other.  So a body holds a node if and only if it is the node or stands above
it, whenever the body or the node has text. -/
theorem Node.sameness_is_position (root : Node) :
    (∀ a ∈ root.preorder, ∀ c ∈ root.preorder, a.path ≠ c.path → a.Same c →
      a.range.isEmpty = true ∧ c.range.isEmpty = true ∧ a ∉ c.ancestors ∧ c ∉ a.ancestors) ∧
    ∀ b : Body, b.node ∈ root.preorder → ∀ n ∈ root.preorder,
      b.node.range.isEmpty = false ∨ n.range.isEmpty = false →
      (b.contains n = true ↔ b.node = n ∨ b.node ∈ n.properAncestors) := by
  have hroot : ∀ m ∈ root.preorder, m.root = root.root := by
    intro m hm
    exact (root_of_mem_ancestors (mem_preorder_iff_ancestors.mp hm)).symm
  constructor
  · intro a ha c hc hpath hsame
    have hac : a.root = c.root := (hroot a ha).trans (hroot c hc).symm
    have hne : a ≠ c := by
      intro heq
      exact hpath (congrArg path heq)
    refine ⟨?_, ?_, ?_, ?_⟩
    · exact isEmpty_range_iff.mpr (width_eq_zero_of_same hac hpath hsame)
    · exact isEmpty_range_iff.mpr (width_eq_zero_of_same hac.symm hpath.symm hsame.symm)
    · intro habove
      exact not_same_of_mem_properAncestors (mem_properAncestors_iff.mpr ⟨habove, hne⟩) hsame
    · intro habove
      exact not_same_of_mem_properAncestors (mem_properAncestors_iff.mpr ⟨habove, hne.symm⟩)
        hsame.symm
  · intro b hb n hn htext
    rw [isEmpty_range_eq_false_iff, isEmpty_range_eq_false_iff] at htext
    rw [Body.contains_iff ((hroot _ hb).trans (hroot n hn).symm) htext, ancestors, List.mem_cons]

/-- Two empty blocks side by side are the same, and one as a body seems to hold the other.  For the
name behind them, and for the block around them as a body, there is no such confusion. -/
theorem Node.sameness_is_position_of_empty_blocks :
    let name := Tree.node .identifierName [.token .identifier "x"]
    let empty := Tree.node .block []
    let root : Node := ⟨0, .block, [empty, empty, name], []⟩
    let a : Node := ⟨0, .block, [], [⟨.block, [], [empty, name]⟩]⟩
    let c : Node := ⟨0, .block, [], [⟨.block, [empty], [name]⟩]⟩
    let m : Node := ⟨0, .identifierName, [.token .identifier "x"], [⟨.block, [empty, empty], []⟩]⟩
    (a.path ≠ c.path ∧ a.Same c ∧ (Body.mk .block a).contains c = true) ∧
      (a.range.isEmpty = true ∧ c.range.isEmpty = true ∧ a ∉ c.ancestors ∧ c ∉ a.ancestors) ∧
      (Body.mk .block a).contains m = false ∧ (Body.mk .block root).contains c = true := by
  intro name empty root a c m
  have ha : a ∈ root.preorder := mem_preorder_iff.mpr ⟨[0], rfl⟩
  have hc : c ∈ root.preorder := mem_preorder_iff.mpr ⟨[1], rfl⟩
  have hm : m ∈ root.preorder := mem_preorder_iff.mpr ⟨[2], rfl⟩
  have hroot : root ∈ root.preorder := mem_preorder_iff.mpr ⟨[], rfl⟩
  have hpath : a.path ≠ c.path := by decide
  have hsame : a.Same c := by decide
  obtain ⟨hempty, hholds⟩ := sameness_is_position root
  refine ⟨⟨hpath, hsame, by decide⟩, hempty a ha c hc hpath hsame, ?_, ?_⟩
  · rw [← Bool.not_eq_true, hholds ⟨.block, a⟩ ha m hm (.inr (by decide))]
    decide
  · rw [hholds ⟨.block, root⟩ hroot c hc (.inl (by decide))]
    decide

end LiveEdit
