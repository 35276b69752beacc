import LiveEdit.Proofs.Building
import LiveEdit.Proofs.Erasure
import LiveEdit.Proofs.LeafSearch

/-!
# Building loses nothing

A located tree is read through its nodes and elements only: `Node.readBack` is the sketch that a
reader writes down.  For a tree that was built from a sketch this is the sketch again, with every
text in its place.

* `Element.tree` is what stands at an element; `map_tree_elements` says that a node's elements show
  its children in order.
* `map_spelling_leaves`: the tokens below a node are the tokens of its tree, `Tree.leafSpellings`.
  The text is made of their texts: `text_eq_join_leaves`.
* `Tiles` says that ranges follow each other without gap or overlap, and `tiles_elements` that the
  children of a node do.
* `build_lossless` puts these together for a sketch and its build.
-/

namespace LiveEdit

/-- What stands at an element. -/
def Element.tree : Element → Tree
  | .node m => m.tree
  | .token t => .token t.kind t.text

/-- The source text of an element. -/
def Element.text (e : Element) : String := e.tree.text

/-- The ranges follow each other from one place to another, without gap and without overlap. -/
def Tiles (start stop : Nat) : List Range → Prop
  | [] => start = stop
  | r :: rs => r.start = start ∧ start ≤ r.stop ∧ Tiles r.stop stop rs

namespace Tree

mutual

/-- The tokens of a tree in source order, each as its kind and its text. -/
def leafSpellings : Tree → List (Kind × String)
  | token k s => [(k, s)]
  | node _ cs => leafSpellingsAll cs

/-- The tokens of neighbouring trees. -/
def leafSpellingsAll : List Tree → List (Kind × String)
  | [] => []
  | c :: cs => c.leafSpellings ++ leafSpellingsAll cs

end

theorem leafSpellingsAll_eq (cs : List Tree) : leafSpellingsAll cs = cs.flatMap leafSpellings := by
  induction cs with
  | nil => rfl
  | cons c cs ih => rw [leafSpellingsAll, ih, List.flatMap_cons]

/-- A text is made of the texts of the tokens. -/
theorem text_eq_join (t : Tree) : t.text = String.join (t.leafSpellings.map Prod.snd) := by
  induction t using Tree.induction with
  | token k s => simp [text, leafSpellings]
  | node k cs ih =>
    rw [text, leafSpellings]
    induction cs with
    | nil => rfl
    | cons c cs ihcs =>
      obtain ⟨hc, hcs⟩ := List.forall_mem_cons.mp ih
      rw [texts, leafSpellingsAll, List.map_append, String.join_append, ← hc, ihcs hcs]

end Tree

namespace Node

/-! ## Reading a tree back -/

/-- The sketch of a node, read off its kind and its elements in order. -/
def readBack (n : Node) : Sketch :=
  .node n.kind <| n.elements.attach.map fun
    | ⟨.token t, _⟩ => .token t.kind t.text
    | ⟨.node m, _⟩ => m.readBack
termination_by n.size
decreasing_by exact size_lt_of_mem_childNodes (List.mem_filterMap.mpr ⟨_, ‹_›, rfl⟩)

theorem readBack_eq (n : Node) :
    n.readBack = .node n.kind (n.elements.map fun
      | .token t => .token t.kind t.text
      | .node m => m.readBack) := by
  rw [readBack, List.map_subtype (g := fun
      | .token t => .token t.kind t.text
      | .node m => m.readBack), List.unattach_attach]
  rintro (m | t) _ <;> rfl

/-- The elements of a node show its children, in order. -/
theorem map_tree_elements (n : Node) : n.elements.map Element.tree = n.children := by
  apply List.ext_getElem?
  intro i
  rw [List.getElem?_map, elements_getElem?, Option.map_map]
  cases n.children[i]? with
  | none => rfl
  | some t => cases t <;> rfl

/-- A reader writes down the description of the tree. -/
theorem readBack_eq_sketch (n : Node) : n.readBack = n.tree.sketch := by
  induction n using childInduction with
  | step n ih =>
    rw [readBack_eq, tree, Tree.sketch, Tree.sketches_eq, ← map_tree_elements n, List.map_map]
    congr 1
    apply List.map_congr_left
    intro e he
    cases e with
    | token t => rfl
    | node m => exact ih m (List.mem_filterMap.mpr ⟨_, he, rfl⟩)

/-! ## Tokens and texts -/

/-- The tokens below a node are those of its tree. -/
theorem map_spelling_leaves (n : Node) :
    n.leaves.map Token.spelling = n.tree.leafSpellings := by
  induction n using childInduction with
  | step n ih =>
    have helement : ∀ e ∈ n.elements, e.leaves.map Token.spelling = e.tree.leafSpellings := by
      intro e he
      cases e with
      | token t => rfl
      | node m => exact ih m (List.mem_filterMap.mpr ⟨_, he, rfl⟩)
    rw [leaves_eq, List.map_flatMap, tree, Tree.leafSpellings, Tree.leafSpellingsAll_eq,
      ← map_tree_elements n, List.flatMap_map, List.flatMap_def, List.flatMap_def,
      List.map_congr_left helement]

end Node

/-- The text of an element is made of the texts of its tokens, in order. -/
theorem Element.text_eq_join_leaves (e : Element) :
    e.text = String.join (e.leaves.map Token.text) := by
  have htokens : e.leaves.map Token.spelling = e.tree.leafSpellings := by
    cases e with
    | token t => rfl
    | node m => exact m.map_spelling_leaves
  rw [text, Tree.text_eq_join, ← htokens, List.map_map]
  rfl

/-- The range of an element is as long as its text. -/
theorem Element.stop_eq_start_add (e : Element) :
    e.range.stop = e.range.start + e.text.utf8ByteSize := by
  cases e with
  | token t => rfl
  | node m =>
    show m.start + m.tree.width = m.start + m.tree.text.utf8ByteSize
    rw [Tree.width_eq_utf8ByteSize_text]

namespace Node

/-! ## Ranges -/

/-- The last children of a node tile what is left of its range. -/
theorem tiles_drop_elements {n : Node} {i : Nat} (hi : i ≤ n.children.length) :
    Tiles (n.start + Tree.widths (n.children.take i)) n.stop
      ((n.elements.drop i).map Element.range) := by
  induction hleft : n.children.length - i generalizing i with
  | zero =>
    have hend : n.children.length ≤ i := by omega
    rw [List.drop_eq_nil_of_le (by rwa [elements_length]), List.take_of_length_le hend]
    show n.start + Tree.widths n.children = n.stop
    rw [stop, width_eq_widths]
  | succ left ih =>
    have hlt : i < n.elements.length := by rw [elements_length]; omega
    obtain ⟨hstart, hstop⟩ := range_of_getElem? (List.getElem?_eq_getElem hlt)
    have hwidths := Tree.widths_take_le_of_le n.children (Nat.le_add_right i 1)
    have hrest := ih (i := i + 1) (by omega) (by omega)
    rw [List.drop_eq_getElem_cons hlt, List.map_cons]
    refine ⟨hstart, ?_, ?_⟩
    · rw [hstop]
      omega
    · rwa [hstop]

/-- The children of a node tile its range. -/
theorem tiles_elements (n : Node) : Tiles n.start n.stop (n.elements.map Element.range) := by
  have htiles := tiles_drop_elements (Nat.zero_le n.children.length)
  simpa [Tree.widths] using htiles

end Node

namespace Sketch

/-! ## A sketch and its build -/

/-- Take a sketch whose root is a node, whose nodes have kinds of nodes other than the end marker
and whose tokens have kinds of tokens.  It is built, and reading the tree back gives the sketch
again.  Every element has the text of its tokens and a range of that length, and the children of
every node tile its range, from the start of the text on.

A sketch that is a token, or in which a node has the kind of a token or a token the kind of a node,
is not built.  The error names the first part whose kind does not fit. -/
theorem build_lossless (version : Nat) (s : Sketch) :
    (s.isToken = false → (∀ p ∈ s.parts, p.fits = true ∧ p.kind ≠ .endMarker) →
      ∃ n, s.build version = .ok n ∧ n.readBack = s ∧ n.range = ⟨0, n.text.utf8ByteSize⟩ ∧
        (∀ e ∈ Element.node n :: n.content,
          e.text = String.join (e.leaves.map Token.text) ∧
          e.range.stop = e.range.start + e.text.utf8ByteSize) ∧
        ∀ m ∈ n.preorder, Tiles m.start m.stop (m.elements.map Element.range)) ∧
    (s.isToken = true ∨ (∃ p ∈ s.parts, p.fits = false) →
      ∃ e, s.build version = .error e ∧ ∀ p, s.misfit? = some p → e = p.misfit) := by
  constructor
  · intro hnode hparts
    cases s with
    | token k text => cases hnode
    | node k cs =>
      have hfits : (node k cs).Fits := fun p hp => (hparts p hp).1
      have hmarker : ∀ p ∈ (node k cs).parts, p.kind ≠ .endMarker := fun p hp => (hparts p hp).2
      have hkind : k ≠ .endMarker := hmarker (node k cs) List.mem_cons_self
      have htree : (node k cs).tree = .node k (trees cs) := by rw [tree, Kind.stored_of_ne hkind]
      have hplant : (node k cs).tree.plant? version = some ⟨version, k, trees cs, []⟩ := by
        rw [htree]
        rfl
      refine ⟨⟨version, k, trees cs, []⟩, build_of_fits hfits hplant, ?_, ?_, ?_, ?_⟩
      · rw [Node.readBack_eq_sketch]
        show (Tree.node k (trees cs)).sketch = node k cs
        rw [← htree, sketch_tree hmarker]
      · show (⟨0, 0 + (Tree.node k (trees cs)).width⟩ : Range) =
          ⟨0, (Tree.node k (trees cs)).text.utf8ByteSize⟩
        rw [Nat.zero_add, Tree.width_eq_utf8ByteSize_text]
      · intro e _
        exact ⟨e.text_eq_join_leaves, e.stop_eq_start_add⟩
      · intro m _
        exact m.tiles_elements
  · intro hmisfit
    rw [build_eq]
    cases hm : s.misfit? with
    | some p => exact ⟨p.misfit, rfl, fun q hq => by rw [Option.some.inj hq]⟩
    | none =>
      have hfits := misfit?_eq_none_iff.mp hm
      rcases hmisfit with htoken | ⟨p, hp, hnot⟩
      · cases s with
        | node k cs => cases htoken
        | token k text => exact ⟨.tokenRoot, rfl, fun q hq => by cases hq⟩
      · rw [hfits p hp] at hnot
        cases hnot

/-- A statement in a block, with a name of two bytes, and a block with a node that has the kind of a
token. -/
theorem build_lossless_of_accented_name :
    let name := node .identifierName [token .identifier "é"]
    let statement := node .expressionStatement [name, token .semicolon ";"]
    let s := node .block [token .lBrace "\x7b", statement, token .rBrace "\x7d"]
    let misplaced := node .block [statement, node .identifier []]
    (∃ n, s.build 0 = .ok n ∧ n.readBack = s ∧ n.range = ⟨0, 5⟩ ∧
      Tiles 0 5 (n.elements.map Element.range)) ∧
    misplaced.build 0 = .error (.tokenKind .identifier) := by
  intro name statement s misplaced
  constructor
  · let root : Node :=
      ⟨0, .block, trees [token .lBrace "\x7b", statement, token .rBrace "\x7d"], []⟩
    have hroot : s.build 0 = .ok root := rfl
    have hbytes : root.text.utf8ByteSize = 5 := by decide +kernel
    obtain ⟨n, hbuild, hread, hrange, -, htiles⟩ :=
      (build_lossless 0 s).1 rfl (by decide +kernel)
    obtain rfl : root = n := Except.ok.inj (hroot.symm.trans hbuild)
    refine ⟨root, hbuild, hread, hrange.trans (congrArg (Range.mk 0) hbytes), ?_⟩
    exact htiles root (Node.mem_preorder_iff.mpr ⟨[], rfl⟩)
  · obtain ⟨e, herror, hcause⟩ := (build_lossless 0 misplaced).2
      (.inr ⟨node .identifier [], by simp [misplaced, statement, name, parts, partsAll], rfl⟩)
    rw [herror, hcause (node .identifier []) rfl]
    rfl

end Sketch

end LiveEdit
