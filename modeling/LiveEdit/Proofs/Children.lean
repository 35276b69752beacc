import LiveEdit.Proofs.Erasure

/-!
# Children by kind

A question for the children of some kind is answered by the trees of the children.  So it can be
answered part by part where the children are given as a list of parts.

* `map_tree_child?` and `map_tree_childrenOf` answer with trees.
* `exists_child?_of_split` answers with the node: the first child of an accepted kind stands behind
  children that are not accepted.
* `Tree.identifier?`, `Tree.keywordKinds` and `Tree.parameterNames` are what a node's tokens and
  parameters say of themselves.
-/

namespace LiveEdit

namespace Tree

/-- A node of an accepted kind. -/
def isNodeOf (accepts : Kind → Bool) : Tree → Bool
  | token .. => false
  | node k _ => accepts k

theorem find?_isNodeOf_eq_none {accepts : Kind → Bool} {ts : List Tree}
    (hts : ∀ t ∈ ts, t.isNodeOf accepts = false) : ts.find? (isNodeOf accepts) = none := by
  rw [List.find?_eq_none]
  intro t ht
  rw [hts t ht]
  exact Bool.false_ne_true

theorem filter_isNodeOf_eq_nil {accepts : Kind → Bool} {ts : List Tree}
    (hts : ∀ t ∈ ts, t.isNodeOf accepts = false) : ts.filter (isNodeOf accepts) = [] := by
  rw [List.filter_eq_nil_iff]
  intro t ht
  rw [hts t ht]
  exact Bool.false_ne_true

/-- The text of the first identifier below the root. -/
def identifier? : Tree → Option String
  | token .. => none
  | node _ cs => ((cs.filterMap spelling?).find? fun t => t.1 == .identifier).map (·.2)

/-- The kinds of the tokens below the root that are not white space or comments. -/
def keywordKinds : Tree → List Kind
  | token .. => []
  | node _ cs => ((cs.filterMap spelling?).filter fun t => !t.1.isTrivia).map (·.1)

/-- The names of the parameters below the root. -/
def parameterNames : Tree → List (Option String)
  | token .. => []
  | node _ cs => (cs.filter (isNodeOf (· == .parameter))).map identifier?

end Tree

namespace Node

/-- The names of the parameters that are children of a node. -/
def parameterNames (n : Node) : List (Option String) :=
  n.parameters.map fun p => p.identifier?.map Token.text

/-! ## Answers as trees -/

theorem map_tree_childNodes (n : Node) :
    n.childNodes.map tree = n.children.filter (Tree.isNodeOf fun _ => true) := by
  rw [childNodes, List.map_filterMap, elements, ← List.filterMap_eq_filter]
  apply filterMap_mapIdx
  intro i t
  cases t <;> rfl

theorem map_tree_childrenOf (n : Node) (accepts : Kind → Bool) :
    (n.childrenOf accepts).map tree = n.children.filter (Tree.isNodeOf accepts) := by
  have hfilter : (n.childrenOf accepts).map tree =
      (n.childNodes.map tree).filter (Tree.isNodeOf accepts) := by rw [List.filter_map]; rfl
  rw [hfilter, map_tree_childNodes, List.filter_filter]
  congr 1
  funext t
  cases t <;> simp [Tree.isNodeOf]

theorem map_tree_child? (n : Node) (accepts : Kind → Bool) :
    (n.child? accepts).map tree = n.children.find? (Tree.isNodeOf accepts) := by
  rw [child?_eq_head?_childrenOf, ← List.head?_map, map_tree_childrenOf, List.head?_filter]

theorem map_text_identifier? (n : Node) :
    n.identifier?.map Token.text = n.tree.identifier? := by
  have htoken : (n.token? .identifier).map Token.spelling =
      (n.tokens.map Token.spelling).find? fun t => t.1 == .identifier := by
    rw [List.find?_map]
    rfl
  rw [identifier?, tree, Tree.identifier?, ← spellings, ← map_spelling_tokens, ← htoken,
    Option.map_map]
  rfl

theorem map_kind_keywords (n : Node) : n.keywords.map Token.kind = n.tree.keywordKinds := by
  rw [tree, Tree.keywordKinds, ← spellings, ← map_spelling_keywords, List.map_map]
  rfl

theorem parameterNames_eq (n : Node) : n.parameterNames = n.tree.parameterNames := by
  rw [tree, Tree.parameterNames, ← map_tree_childrenOf, List.map_map, parameterNames, parameters]
  apply List.map_congr_left
  intro p _
  exact map_text_identifier? p

/-! ## Answers as nodes -/

/-- A search for a child passes over children that are not accepted. -/
theorem find?_childNodesAfter_append {n : Node} {accepts : Kind → Bool} {before ts us : List Tree}
    (hts : ∀ t ∈ ts, t.isNodeOf accepts = false) :
    (n.childNodesAfter before (ts ++ us)).find? (fun m => accepts m.kind) =
      (n.childNodesAfter (before ++ ts) us).find? (fun m => accepts m.kind) := by
  induction ts generalizing before with
  | nil => rw [List.append_nil]; rfl
  | cons t ts ih =>
    obtain ⟨ht, hrest⟩ := List.forall_mem_cons.mp hts
    rw [List.append_cons before t ts, ← ih hrest, List.cons_append]
    cases t with
    | token k s => rw [childNodesAfter]
    | node k cs =>
      rw [childNodesAfter, List.find?_cons_of_neg]
      exact Bool.eq_false_iff.mp ht

/-- The first child of an accepted kind stands behind children that are not accepted. -/
theorem exists_child?_of_split {n : Node} {accepts : Kind → Bool} {before after : List Tree}
    {t : Tree} (hchildren : n.children = before ++ t :: after)
    (hbefore : ∀ u ∈ before, u.isNodeOf accepts = false) (ht : t.isNodeOf accepts = true) :
    ∃ m, n.child? accepts = some m ∧ n.childNode? before.length = some m ∧ m.tree = t := by
  cases t with
  | token k s => cases ht
  | node k cs =>
    refine ⟨⟨n.version, k, cs, ⟨n.kind, before, after⟩ :: n.frames⟩, ?_, ?_, rfl⟩
    · rw [child?, childNodes_eq_childNodesAfter, hchildren, find?_childNodesAfter_append hbefore,
        List.nil_append, childNodesAfter]
      exact List.find?_cons_of_pos ht
    · rw [childNode?, elements_getElem?, hchildren, List.getElem?_append_right (Nat.le_refl _),
        Nat.sub_self]
      simp [element, Element.node?, hchildren]

/-- There is no child of an accepted kind where no child is accepted. -/
theorem child?_eq_none {n : Node} {accepts : Kind → Bool} {before after : List Tree}
    (hchildren : n.children = before ++ after)
    (hbefore : ∀ t ∈ before, t.isNodeOf accepts = false)
    (hafter : ∀ t ∈ after, t.isNodeOf accepts = false) : n.child? accepts = none := by
  rw [← Option.map_eq_none_iff, map_tree_child?, hchildren, List.find?_append,
    Tree.find?_isNodeOf_eq_none hbefore, Tree.find?_isNodeOf_eq_none hafter]
  rfl

end Node

end LiveEdit
