import LiveEdit.Proofs.Lockstep

/-!
# The search for a leaf

`Node.leafAndPartner` goes down to the token at an offset.  `Search` is a declarative trace of the
children that it chooses, and every proof about the walk is an induction on the trace.

* `find?_leaves_of_search`: before the end of a node, the search finds the token that a scan over
  all tokens finds first.
* `lastLeaf?_of_search`: at the end of a node, it follows the last children.
* `value_of_search_some`: the partner is the right node at the same path, if the kinds agree all
  along the path.
-/

namespace LiveEdit

/-- The tokens at and below an element, in source order. -/
def Element.leaves : Element → List Token
  | .token t => [t]
  | .node m => m.content.filterMap Element.token?

namespace Node

/-! ## Tokens in source order -/

/-- The tokens below a node, in source order. -/
def leaves (n : Node) : List Token := n.content.filterMap Element.token?

theorem content_eq (n : Node) :
    n.content = n.elements.flatMap fun
      | .token t => [.token t]
      | .node m => .node m :: m.content := by
  rw [content, List.flatMap_subtype (g := fun
      | .token t => [.token t]
      | .node m => .node m :: m.content), List.unattach_attach]
  rintro (m | t) _ <;> rfl

theorem leaves_eq (n : Node) : n.leaves = n.elements.flatMap Element.leaves := by
  rw [leaves, content_eq, List.filterMap_flatMap]
  congr 1
  funext e
  cases e with
  | token t => rfl
  | node m => rfl

/-- The tokens of a node lie inside it. -/
theorem within_of_mem_leaves {n : Node} {t : Token} (ht : t ∈ n.leaves) :
    n.start ≤ t.start ∧ t.stop ≤ n.stop := by
  induction n using childInduction with
  | step n ih =>
    rw [leaves_eq, List.mem_flatMap] at ht
    obtain ⟨e, he, hte⟩ := ht
    obtain ⟨i, hi⟩ := List.mem_iff_getElem?.mp he
    obtain ⟨hstart, hstop⟩ := range_of_getElem? hi
    have hinside := Tree.widths_take_le n.children (i + 1)
    rw [stop, width_eq_widths]
    cases e with
    | token u =>
      obtain rfl := List.mem_singleton.mp hte
      exact ⟨by rw [show t.start = _ from hstart]; omega,
        by rw [show t.stop = _ from hstop]; omega⟩
    | node m =>
      have hwithin := ih m (List.mem_filterMap.mpr ⟨_, he, rfl⟩) hte
      rw [show m.start = _ from hstart, show m.stop = _ from hstop] at hwithin
      omega

theorem within_of_mem_element_leaves {e : Element} {t : Token} (ht : t ∈ e.leaves) :
    e.range.start ≤ t.start ∧ t.stop ≤ e.range.stop := by
  cases e with
  | token u =>
    obtain rfl := List.mem_singleton.mp ht
    exact ⟨Nat.le_refl _, Nat.le_refl _⟩
  | node m => exact within_of_mem_leaves ht

/-- A scan for the first token that ends behind an offset passes over the children in front of the
one that holds the offset. -/
theorem find?_leaves_eq {n : Node} {i offset : Nat} {e : Element} (he : n.elements[i]? = some e)
    (hlow : e.range.start ≤ offset) {t : Token}
    (ht : e.leaves.find? (fun t => offset < t.stop) = some t) :
    n.leaves.find? (fun t => offset < t.stop) = some t := by
  obtain ⟨hi, hget⟩ := List.getElem?_eq_some_iff.mp he
  have hsplit : n.elements = n.elements.take i ++ e :: n.elements.drop (i + 1) := by
    rw [← hget, List.getElem_cons_drop, List.take_append_drop]
  have hfront : ((n.elements.take i).flatMap Element.leaves).find? (fun t => offset < t.stop)
      = none := by
    rw [List.find?_eq_none]
    intro u hu
    obtain ⟨d, hd, hud⟩ := List.mem_flatMap.mp hu
    obtain ⟨j, hj⟩ := List.mem_iff_getElem?.mp hd
    have hji : j < i := by
      obtain ⟨hlength, -⟩ := List.getElem?_eq_some_iff.mp hj
      rw [List.length_take] at hlength
      omega
    rw [List.getElem?_take_of_lt hji] at hj
    have hle := Tree.widths_take_le_of_le n.children (show j + 1 ≤ i by omega)
    have hwithin := within_of_mem_element_leaves hud
    have hd := (range_of_getElem? hj).2
    have he := (range_of_getElem? he).1
    simp only [decide_eq_true_eq]
    omega
  rw [leaves_eq, hsplit, List.flatMap_append, List.find?_append, hfront, Option.none_or,
    List.flatMap_cons, List.find?_append, ht, Option.some_or]

/-! ## The chain of last children -/

/-- The token at the end of the chain of last children that starts at a node.  There is none if
the chain ends in a node without children. -/
def lastLeaf? (n : Node) : Option Token :=
  match _h : n.elements.getLast? with
  | none => none
  | some (.token t) => some t
  | some (.node m) => m.lastLeaf?
termination_by n.size
decreasing_by
  exact size_lt_of_mem_childNodes (List.mem_filterMap.mpr ⟨_, List.mem_of_getLast? ‹_›, rfl⟩)

theorem lastLeaf?_of_none {n : Node} (hlast : n.elements.getLast? = none) :
    n.lastLeaf? = none := by
  rw [lastLeaf?]
  split <;> simp_all

theorem lastLeaf?_of_token {n : Node} {t : Token}
    (hlast : n.elements.getLast? = some (.token t)) : n.lastLeaf? = some t := by
  rw [lastLeaf?]
  split <;> simp_all

theorem lastLeaf?_of_node {n m : Node} (hlast : n.elements.getLast? = some (.node m)) :
    n.lastLeaf? = m.lastLeaf? := by
  rw [lastLeaf?]
  split <;> simp_all

/-- The last child of a node ends where the node ends. -/
theorem stop_of_getLast? {n : Node} {e : Element} (hlast : n.elements.getLast? = some e) :
    e.range.stop = n.stop := by
  rw [List.getLast?_eq_getElem?, elements_length] at hlast
  obtain ⟨hlength, -⟩ := List.getElem?_eq_some_iff.mp hlast
  rw [elements_length] at hlength
  rw [(range_of_getElem? hlast).2, stop, width_eq_widths, List.take_of_length_le (by omega)]

end Node

/-! ## The trace of a search -/

/-- The search for an offset goes from a node along a path of children and ends at a token, or at
a node in which no child holds the offset. -/
inductive Search (offset : Nat) : Node → Path → Option Token → Prop
  | lost {n : Node} (hchild : n.childAt? offset = none) : Search offset n [] none
  | leaf {n : Node} {i : Nat} {t : Token} (hchild : n.childAt? offset = some (i, .token t)) :
      Search offset n [] (some t)
  | down {n m : Node} {i : Nat} {p : Path} {found : Option Token}
      (hchild : n.childAt? offset = some (i, .node m)) (tail : Search offset m p found) :
      Search offset n (i :: p) found

namespace Node

/-- A child that an offset leads to stands at its index. -/
theorem getElem?_of_childAt? {n : Node} {offset i : Nat} {e : Element}
    (hchild : n.childAt? offset = some (i, e)) : n.elements[i]? = some e := by
  unfold childAt? at hchild
  split at hchild
  · obtain ⟨j, -, hj⟩ := Option.bind_eq_some_iff.mp hchild
    obtain ⟨d, hd, hpair⟩ := Option.map_eq_some_iff.mp hj
    obtain ⟨rfl, rfl⟩ := Prod.mk.inj hpair
    exact hd
  · cases hchild

theorem childNode?_of_childAt? {n m : Node} {offset i : Nat}
    (hchild : n.childAt? offset = some (i, .node m)) : n.childNode? i = some m :=
  Option.bind_eq_some_iff.mpr ⟨_, getElem?_of_childAt? hchild, rfl⟩

theorem parent_of_childAt? {n : Node} {t : Token} {offset i : Nat}
    (hchild : n.childAt? offset = some (i, .token t)) : t.parent = n := by
  have he := getElem?_of_childAt? hchild
  rw [elements_getElem?, Option.map_eq_some_iff] at he
  obtain ⟨u, -, hu⟩ := he
  cases u with
  | token k s => rw [← Element.token.inj hu]
  | node k cs => cases hu

/-- Every search comes to an end. -/
theorem exists_search (n : Node) (offset : Nat) : ∃ p found, Search offset n p found := by
  induction n using childInduction with
  | step n ih =>
    cases hchild : n.childAt? offset with
    | none => exact ⟨[], none, .lost hchild⟩
    | some child =>
      obtain ⟨i, e⟩ := child
      cases e with
      | token t => exact ⟨[], some t, .leaf hchild⟩
      | node m =>
        obtain ⟨p, found, htail⟩ := ih m (mem_childNodes_of_childAt? hchild)
        exact ⟨i :: p, found, .down hchild htail⟩

/-- The token that a search finds is a child of the node at the end of its path. -/
theorem nodeAt?_of_search {n : Node} {offset : Nat} {p : Path} {t : Token}
    (hsearch : Search offset n p (some t)) : n.nodeAt? p = some t.parent := by
  generalize hfound : some t = found at hsearch
  induction hsearch with
  | lost hchild => cases hfound
  | leaf hchild =>
    obtain rfl := Option.some.inj hfound
    rw [parent_of_childAt? hchild]
    rfl
  | down hchild tail ih => rw [nodeAt?_cons (childNode?_of_childAt? hchild), ih hfound]

/-! ## Where a search ends -/

/-- Outside a node, a search finds nothing. -/
theorem eq_none_of_search_outside {n : Node} {offset : Nat} {p : Path} {found : Option Token}
    (hsearch : Search offset n p found) (hout : offset < n.start ∨ n.stop < offset) :
    found = none := by
  have hnone := childAt?_outside hout
  cases hsearch with
  | lost hchild => rfl
  | leaf hchild =>
    rw [hnone] at hchild
    cases hchild
  | down hchild tail =>
    rw [hnone] at hchild
    cases hchild

/-- Before the end of a node, a search finds the first token that ends behind the offset. -/
theorem find?_leaves_of_search {n : Node} {offset : Nat} {p : Path} {found : Option Token}
    (hsearch : Search offset n p found) (hlow : n.start ≤ offset) (hhigh : offset < n.stop) :
    ∃ t, found = some t ∧ n.leaves.find? (fun t => offset < t.stop) = some t ∧
      t.start ≤ offset ∧ offset < t.stop := by
  induction hsearch with
  | @lost n hchild =>
    obtain ⟨i, e, he, hstart, hstop⟩ := exists_childAt? hlow hhigh
    rw [childAt?_eq_some he hstart hstop] at hchild
    cases hchild
  | @leaf n i t hchild =>
    obtain ⟨j, e, he, hstart, hstop⟩ := exists_childAt? hlow hhigh
    rw [childAt?_eq_some he hstart hstop, Option.some.injEq, Prod.mk.injEq] at hchild
    obtain ⟨rfl, rfl⟩ := hchild
    refine ⟨t, rfl, find?_leaves_eq he hstart ?_, hstart, hstop⟩
    exact List.find?_cons_of_pos (decide_eq_true hstop)
  | @down n m i p found hchild tail ih =>
    obtain ⟨j, e, he, hstart, hstop⟩ := exists_childAt? hlow hhigh
    rw [childAt?_eq_some he hstart hstop, Option.some.injEq, Prod.mk.injEq] at hchild
    obtain ⟨rfl, rfl⟩ := hchild
    obtain ⟨t, hfound, hfirst, hin⟩ := ih hstart hstop
    exact ⟨t, hfound, find?_leaves_eq he hstart hfirst, hin⟩

/-- At the end of a node, a search follows the last children. -/
theorem lastLeaf?_of_search {n : Node} {offset : Nat} {p : Path} {found : Option Token}
    (hsearch : Search offset n p found) (hend : offset = n.stop) : found = n.lastLeaf? := by
  induction hsearch with
  | @lost n hchild =>
    rw [hend, childAt?_stop, Option.map_eq_none_iff] at hchild
    rw [lastLeaf?_of_none hchild]
  | @leaf n i t hchild =>
    rw [hend, childAt?_stop, Option.map_eq_some_iff] at hchild
    obtain ⟨e, hlast, hpair⟩ := hchild
    rw [(Prod.mk.inj hpair).2] at hlast
    rw [lastLeaf?_of_token hlast]
  | @down n m i p found hchild tail ih =>
    rw [hend, childAt?_stop, Option.map_eq_some_iff] at hchild
    obtain ⟨e, hlast, hpair⟩ := hchild
    rw [(Prod.mk.inj hpair).2] at hlast
    have hstop : m.stop = n.stop := stop_of_getLast? hlast
    rw [lastLeaf?_of_node hlast]
    exact ih (hend.trans hstop.symm)

/-- A search finds a token unless the offset lies outside, or at an end without a last token. -/
theorem search_eq_none_iff {n : Node} {offset : Nat} {p : Path} {found : Option Token}
    (hsearch : Search offset n p found) :
    found = none ↔ offset < n.start ∨ n.stop < offset ∨ offset = n.stop ∧ n.lastLeaf? = none := by
  constructor
  · intro h
    subst h
    by_cases hlow : offset < n.start
    · exact .inl hlow
    · rcases Nat.lt_trichotomy offset n.stop with hhigh | hend | hhigh
      · obtain ⟨t, ht, -⟩ := find?_leaves_of_search hsearch (by omega) hhigh
        cases ht
      · exact .inr (.inr ⟨hend, (lastLeaf?_of_search hsearch hend).symm⟩)
      · exact .inr (.inl hhigh)
  · intro h
    rcases h with hlow | hhigh | ⟨hend, hlast⟩
    · exact eq_none_of_search_outside hsearch (.inl hlow)
    · exact eq_none_of_search_outside hsearch (.inr hhigh)
    · rw [lastLeaf?_of_search hsearch hend, hlast]

/-! ## The partner of a search -/

theorem leafAndPartnerFrom_of_none {left : Node} {offset : Nat}
    (hchild : left.childAt? offset = none) (depth : Nat) (right : Option Node) :
    leafAndPartnerFrom depth left offset right =
      ⟨none, (left.agreeing right depth).events⟩ := by
  rw [leafAndPartnerFrom]
  split <;> simp_all

theorem leafAndPartnerFrom_of_token {left : Node} {offset i : Nat} {t : Token}
    (hchild : left.childAt? offset = some (i, .token t)) (depth : Nat) (right : Option Node) :
    leafAndPartnerFrom depth left offset right =
      ⟨some ⟨t, left, (left.agreeing right depth).value⟩,
        (left.agreeing right depth).events⟩ := by
  rw [leafAndPartnerFrom]
  split <;> simp_all

theorem leafAndPartnerFrom_of_node {left m : Node} {offset i : Nat}
    (hchild : left.childAt? offset = some (i, .node m)) (depth : Nat) (right : Option Node) :
    leafAndPartnerFrom depth left offset right =
      (leafAndPartnerFrom (depth + 1) m offset
        ((left.agreeing right depth).value.bind (·.childNode? i))).after
        (left.agreeing right depth).events := by
  rw [leafAndPartnerFrom]
  split <;> simp_all

/-- The right side of a pair stays if its kind is the left kind. -/
theorem agreeing_value_eq_some_iff {left r : Node} {right : Option Node} {depth : Nat} :
    (left.agreeing right depth).value = some r ↔ right = some r ∧ left.kind = r.kind := by
  cases right with
  | none => simp [agreeing]
  | some s =>
    rw [agreeing]
    by_cases hkind : s.kind = left.kind
    · rw [if_pos hkind]
      constructor
      · intro hs
        obtain rfl := Option.some.inj hs
        exact ⟨rfl, hkind.symm⟩
      · exact And.left
    · rw [if_neg hkind]
      constructor
      · intro hs
        cases hs
      · intro h
        rcases h with ⟨hs, hr⟩
        obtain rfl := Option.some.inj hs
        exact absurd hr.symm hkind

/-- A search that finds no token makes the walk answer nothing. -/
theorem value_of_search_none {left : Node} {offset : Nat} {p : Path}
    (hsearch : Search offset left p none) (depth : Nat) (right : Option Node) :
    (leafAndPartnerFrom depth left offset right).value = none := by
  generalize hfound : none = found at hsearch
  induction hsearch generalizing depth right with
  | lost hchild => rw [leafAndPartnerFrom_of_none hchild]
  | leaf hchild => cases hfound
  | down hchild tail ih =>
    rw [leafAndPartnerFrom_of_node hchild]
    exact ih _ _ hfound

/-- The walk answers the token that its search finds, and as the partner the right node at the
path of the search, if the kinds agree along the whole path. -/
theorem value_of_search_some {left : Node} {offset : Nat} {p : Path} {t : Token}
    (hsearch : Search offset left p (some t)) (depth : Nat) (right : Option Node) :
    ∃ m, (leafAndPartnerFrom depth left offset right).value = some m ∧ m.leaf = t ∧
      m.left = t.parent ∧ ∀ r, m.right = some r ↔
        ∃ s, right = some s ∧ AgreeThrough left s p ∧ s.nodeAt? p = some r := by
  generalize hfound : some t = found at hsearch
  induction hsearch generalizing depth right with
  | lost hchild => cases hfound
  | @leaf n i u hchild =>
    obtain rfl := Option.some.inj hfound
    rw [leafAndPartnerFrom_of_token hchild]
    refine ⟨_, rfl, rfl, (parent_of_childAt? hchild).symm, ?_⟩
    intro r
    show (n.agreeing right depth).value = some r ↔ _
    rw [agreeing_value_eq_some_iff]
    constructor
    · intro h
      rcases h with ⟨hright, hkind⟩
      exact ⟨r, hright, agreeThrough_nil.mpr hkind, rfl⟩
    · intro h
      rcases h with ⟨s, hright, hagree, hs⟩
      obtain rfl := Option.some.inj hs
      exact ⟨hright, hagree.kind_eq⟩
  | @down n c i p found hchild tail ih =>
    rw [leafAndPartnerFrom_of_node hchild]
    obtain ⟨m, hvalue, hleaf, hleft, hpartner⟩ :=
      ih (depth + 1) ((n.agreeing right depth).value.bind (·.childNode? i)) hfound
    refine ⟨m, hvalue, hleaf, hleft, ?_⟩
    have hc := childNode?_of_childAt? hchild
    intro r
    rw [hpartner r]
    constructor
    · intro h
      rcases h with ⟨d, hd, hagree, hr⟩
      obtain ⟨s, hs, hsd⟩ := Option.bind_eq_some_iff.mp hd
      obtain ⟨hright, hkind⟩ := agreeing_value_eq_some_iff.mp hs
      exact ⟨s, hright, (agreeThrough_cons hc hsd p).mpr ⟨hkind, hagree⟩,
        (nodeAt?_cons hsd p).trans hr⟩
    · intro h
      rcases h with ⟨s, hright, hagree, hr⟩
      obtain ⟨d, hsd, hdr⟩ := Option.bind_eq_some_iff.mp hr
      obtain ⟨hkind, hrest⟩ := (agreeThrough_cons hc hsd p).mp hagree
      refine ⟨d, Option.bind_eq_some_iff.mpr ⟨s, ?_, hsd⟩, hrest, hdr⟩
      exact agreeing_value_eq_some_iff.mpr ⟨hright, hkind⟩

/-! ## The outcome of the walk -/

/-- What the walk to an offset answers, for every pair of nodes and every offset.

It answers nothing outside the left node, and at its end if the chain of last children ends in a
node without children.  Otherwise it finds a token and the node around it: before the end, the
first of all tokens below the left node that ends behind the offset, and at the end, the token at
the end of the chain.  The partner is the right node at the path of the node found, and it is
there if and only if the kinds agree at every prefix of that path; kinds that differ at one
prefix are not made good by kinds that agree further down. -/
theorem leafAndPartner_outcome (left right : Node) (offset : Nat) :
    ((left.leafAndPartner offset right).value = none ↔
      offset < left.start ∨ left.stop < offset ∨
        offset = left.stop ∧ left.lastLeaf? = none) ∧
    ∀ m, (left.leafAndPartner offset right).value = some m →
      (offset < left.stop →
        left.leaves.find? (fun t => offset < t.stop) = some m.leaf ∧
          m.leaf.start ≤ offset ∧ offset < m.leaf.stop) ∧
      (offset = left.stop → left.lastLeaf? = some m.leaf) ∧
      m.left = m.leaf.parent ∧
      ∃ p, left.nodeAt? p = some m.left ∧
        (∀ r, m.right = some r ↔ AgreeThrough left right p ∧ right.nodeAt? p = some r) ∧
        ∀ q, q <+: p → ¬ KindsAgree left right q → m.right = none := by
  obtain ⟨p, found, hsearch⟩ := exists_search left offset
  have hfound := search_eq_none_iff hsearch
  cases found with
  | none =>
    have hvalue : (left.leafAndPartner offset right).value = none :=
      value_of_search_none hsearch 0 (some right)
    rw [hvalue]
    refine ⟨iff_of_true rfl (hfound.mp rfl), ?_⟩
    intro m hm
    cases hm
  | some t =>
    obtain ⟨m, hvalue, rfl, hleft, hpartner⟩ := value_of_search_some hsearch 0 (some right)
    have hright : ∀ r, m.right = some r ↔
        AgreeThrough left right p ∧ right.nodeAt? p = some r := by
      intro r
      rw [hpartner r]
      constructor
      · intro h
        rcases h with ⟨s, hs, hagree, hr⟩
        obtain rfl := Option.some.inj hs
        exact ⟨hagree, hr⟩
      · intro h
        rcases h with ⟨hagree, hr⟩
        exact ⟨right, rfl, hagree, hr⟩
    have hplace : ¬ (offset < left.start ∨ left.stop < offset ∨
        offset = left.stop ∧ left.lastLeaf? = none) := by
      rw [← hfound]
      exact nofun
    rw [show (left.leafAndPartner offset right).value = some m from hvalue]
    refine ⟨iff_of_false nofun hplace, ?_⟩
    intro m' hm'
    obtain rfl := Option.some.inj hm'
    refine ⟨?_, ?_, hleft, p, ?_, hright, ?_⟩
    · intro hhigh
      obtain ⟨t, ht, hfirst, hin⟩ := find?_leaves_of_search hsearch (by omega) hhigh
      rw [Option.some.inj ht]
      exact ⟨hfirst, hin⟩
    · intro hend
      exact (lastLeaf?_of_search hsearch hend).symm
    · rw [hleft]
      exact nodeAt?_of_search hsearch
    · intro q hq hdiffer
      rw [Option.eq_none_iff_forall_ne_some]
      intro r hr
      exact hdiffer (((hright r).mp hr).1 q hq)

end Node

end LiveEdit
