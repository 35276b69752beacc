import LiveEdit.Partner
import LiveEdit.Proofs.Extent

/-!
# One step down by an offset

A walk chooses the child of a node by an offset.  `childAt?_eq_some` says that this is the child
whose range holds the offset, `childAt?_stop` that the end of a node leads to the last child, and
`childAt?_outside` that an offset outside the node leads nowhere.

An offset at which a node that covers text starts leads towards that node:
`childAt?_of_nodeAt?`.  Children without text in front of it hold no offset and are passed over.
-/

namespace LiveEdit

namespace Tree

theorem indexAt?_cons_cons (offset : Nat) (t u : Tree) (us : List Tree) :
    indexAt? offset (t :: u :: us) =
      if offset < t.width then some 0
      else (indexAt? (offset - t.width) (u :: us)).map (· + 1) := by
  rw [indexAt?]
  exact List.cons_ne_nil u us

/-- An offset lies in the tree whose stretch of text holds it. -/
theorem indexAt?_eq_some {ts : List Tree} {i offset : Nat} (hi : i < ts.length)
    (hlow : widths (ts.take i) ≤ offset) (hhigh : offset < widths (ts.take (i + 1))) :
    indexAt? offset ts = some i := by
  induction ts generalizing i offset with
  | nil => cases hi
  | cons t ts ih =>
    cases i with
    | zero =>
      have hfirst : offset < t.width := by simpa [widths] using hhigh
      cases ts with
      | nil => rfl
      | cons u us => rw [indexAt?_cons_cons, if_pos hfirst]
    | succ i =>
      simp only [List.take_succ_cons, widths, List.length_cons] at hlow hhigh hi
      cases ts with
      | nil => simp at hi
      | cons u us =>
        have hrest : indexAt? (offset - t.width) (u :: us) = some i :=
          ih (by simpa using hi) (by omega) (by omega)
        rw [indexAt?_cons_cons, if_neg (by omega), hrest, Option.map_some]

/-- An offset past the end lies in the last tree. -/
theorem indexAt?_of_widths_le {ts : List Tree} {offset : Nat} (hne : ts ≠ [])
    (hend : widths ts ≤ offset) : indexAt? offset ts = some (ts.length - 1) := by
  induction ts generalizing offset with
  | nil => exact absurd rfl hne
  | cons t ts ih =>
    cases ts with
    | nil => rfl
    | cons u us =>
      simp only [widths] at hend
      have hrest : indexAt? (offset - t.width) (u :: us) = some us.length :=
        ih (by simp) (by simp only [widths]; omega)
      rw [indexAt?_cons_cons, if_neg (by omega), hrest]
      simp

/-- An offset before the end lies in some tree. -/
theorem exists_bounds_of_lt_widths {ts : List Tree} {offset : Nat} (hend : offset < widths ts) :
    ∃ i, i < ts.length ∧ widths (ts.take i) ≤ offset ∧ offset < widths (ts.take (i + 1)) := by
  induction ts generalizing offset with
  | nil => cases hend
  | cons t ts ih =>
    by_cases hfirst : offset < t.width
    · exact ⟨0, by simp, by simp [widths], by simpa [widths] using hfirst⟩
    · simp only [widths] at hend
      obtain ⟨i, hi, hlow, hhigh⟩ := ih (show offset - t.width < widths ts by omega)
      refine ⟨i + 1, by simpa using hi, ?_, ?_⟩
      · simp only [List.take_succ_cons, widths]
        omega
      · simp only [List.take_succ_cons, widths]
        omega

end Tree

namespace Node

/-- An offset in the range of a child leads to the child. -/
theorem childAt?_eq_some {n : Node} {i offset : Nat} {e : Element} (he : n.elements[i]? = some e)
    (hlow : e.range.start ≤ offset) (hhigh : offset < e.range.stop) :
    n.childAt? offset = some (i, e) := by
  obtain ⟨hstart, hstop⟩ := range_of_getElem? he
  have hi : i < n.children.length := by
    obtain ⟨hi, -⟩ := List.getElem?_eq_some_iff.mp he
    rwa [elements_length] at hi
  have hinside := Tree.widths_take_le n.children (i + 1)
  have hindex : Tree.indexAt? (offset - n.start) n.children = some i :=
    Tree.indexAt?_eq_some hi (by omega) (by omega)
  rw [childAt?, if_pos, hindex, Option.bind_some, he, Option.map_some]
  rw [stop, width_eq_widths]
  omega

/-- An offset before the end of a node lies in the range of one of its children. -/
theorem exists_childAt? {n : Node} {offset : Nat} (hlow : n.start ≤ offset)
    (hhigh : offset < n.stop) :
    ∃ (i : Nat) (e : Element),
      n.elements[i]? = some e ∧ e.range.start ≤ offset ∧ offset < e.range.stop := by
  rw [stop, width_eq_widths] at hhigh
  obtain ⟨i, hi, hbelow, habove⟩ :=
    Tree.exists_bounds_of_lt_widths (show offset - n.start < Tree.widths n.children by omega)
  have hlength : i < n.elements.length := by rwa [elements_length]
  have he := List.getElem?_eq_getElem hlength
  obtain ⟨hstart, hstop⟩ := range_of_getElem? he
  exact ⟨i, n.elements[i], he, by omega, by omega⟩

/-- The end of a node leads to its last child. -/
theorem childAt?_stop (n : Node) :
    n.childAt? n.stop = n.elements.getLast?.map (n.children.length - 1, ·) := by
  have hoffset : n.stop - n.start = Tree.widths n.children := by
    rw [stop, width_eq_widths]
    omega
  rw [childAt?, if_pos (by rw [stop]; omega), hoffset]
  by_cases hchildren : n.children = []
  · have helements : n.elements = [] := by
      rw [← List.length_eq_zero_iff, elements_length, hchildren, List.length_nil]
    rw [hchildren, helements]
    rfl
  · rw [Tree.indexAt?_of_widths_le hchildren (Nat.le_refl _), Option.bind_some,
      List.getLast?_eq_getElem?, elements_length]

/-- An offset outside a node leads nowhere. -/
theorem childAt?_outside {n : Node} {offset : Nat} (hout : offset < n.start ∨ n.stop < offset) :
    n.childAt? offset = none := by
  rw [childAt?, if_neg (by omega)]

/-- An offset in the range of a child node leads to the child node. -/
theorem childAt?_of_childNode? {n c : Node} {i offset : Nat} (hc : n.childNode? i = some c)
    (hlow : c.start ≤ offset) (hhigh : offset < c.stop) :
    n.childAt? offset = some (i, .node c) :=
  childAt?_eq_some (getElem?_elements_of_childNode? hc) hlow hhigh

/-- The start of a node that covers text leads down towards the node. -/
theorem childAt?_of_nodeAt? {n c target : Node} {i : Nat} {p : Path}
    (hc : n.childNode? i = some c) (htarget : c.nodeAt? p = some target)
    (hwidth : target.width ≠ 0) : n.childAt? target.start = some (i, .node c) := by
  have hwithin := within_of_nodeAt? htarget
  rw [stop] at hwithin
  exact childAt?_of_childNode? hc hwithin.1 (by omega)

end Node

end LiveEdit
