import LiveEdit.Syntax.Traversal
import LiveEdit.Proofs.Extent
import LiveEdit.Proofs.OwnCode
import LiveEdit.Proofs.SourceOrder

/-!
# Pruned traversals

A traversal that reports the visits of a subtree in order, and that can skip what is below the node
that it just entered, lists the same nodes as the recursive walk.

* `Traversal.Orderly` is what is asked of a traversal.
* `PrunesVisits` says what is listed from the states in front of some visits.
  `PrunesVisits.cons_leave`, `PrunesVisits.cons_enter` and `PrunesVisits.cons_skip` take one visit
  more, `PrunesVisits.visits` those of a whole subtree, by induction on it.
* `Cursor.orderly`: the way by first children, next siblings and parents is such a traversal.
* `walk_eq_filter` and `walk_resumes` say which nodes a walk lists, and where it goes on behind a
  node that is not accepted.
* `prune_exact` puts these together.
-/

namespace LiveEdit

namespace Traversal

variable {σ : Type} {t : Traversal σ} {enter : Node → Bool}

/-! ## What is asked of a traversal -/

/-- From a state on, a traversal reports some visits and then ends. -/
inductive Yields (t : Traversal σ) : σ → List Visit → Prop
  | nil {s : σ} (hnext : t.next? s = none) : Yields t s []
  | cons {s s' : σ} {v : Visit} {vs : List Visit} (hnext : t.next? s = some (v, s'))
      (hrest : Yields t s' vs) : Yields t s (v :: vs)

/-- A traversal starts in front of all visits of its start, in order, and when it skips it goes from
behind the entry of a node to its leave. -/
structure Orderly (t : Traversal σ) : Prop where
  yields_start : ∀ n : Node, t.Yields (t.start n) n.visits
  yields_skip : ∀ {s s' : σ} {n : Node} {vs : List Visit}, t.next? s = some (.enter n, s') →
    t.Yields s' (n.childNodes.flatMap Node.visits ++ .leave n :: vs) →
    t.Yields (t.skip s') (.leave n :: vs)

/-! ## What is listed -/

/-- There is one list at most: the next visit of a state is one. -/
theorem PrunesTo.unique {s : σ} {ns ns' : List Node} (h : t.PrunesTo enter s ns)
    (h' : t.PrunesTo enter s ns') : ns = ns' := by
  induction h generalizing ns' with
  | nil hnext =>
    cases h' with
    | nil => rfl
    | leave hnext' => cases hnext.symm.trans hnext'
    | enter hnext' => cases hnext.symm.trans hnext'
  | leave hnext _ ih =>
    cases h' with
    | nil hnext' => cases hnext.symm.trans hnext'
    | leave hnext' hrest' =>
      cases hnext.symm.trans hnext'
      exact ih hrest'
    | enter hnext' => cases hnext.symm.trans hnext'
  | enter hnext _ ih =>
    cases h' with
    | nil hnext' => cases hnext.symm.trans hnext'
    | leave hnext' => cases hnext.symm.trans hnext'
    | enter hnext' hrest' =>
      cases hnext.symm.trans hnext'
      rw [ih hrest']

/-- From every state in front of the visits `vs`, the nodes `ns` are listed. -/
def PrunesVisits (t : Traversal σ) (enter : Node → Bool) (vs : List Visit) (ns : List Node) : Prop :=
  ∀ s, t.Yields s vs → t.PrunesTo enter s ns

theorem PrunesVisits.nil : t.PrunesVisits enter [] [] := by
  intro s hs
  cases hs with
  | nil hnext => exact .nil hnext

theorem PrunesVisits.cons_leave {n : Node} {vs : List Visit} {ns : List Node}
    (h : t.PrunesVisits enter vs ns) : t.PrunesVisits enter (.leave n :: vs) ns := by
  intro s hs
  cases hs with
  | cons hnext hrest => exact .leave hnext (h _ hrest)

theorem PrunesVisits.cons_enter {n : Node} {vs : List Visit} {ns : List Node}
    (hn : enter n = true) (h : t.PrunesVisits enter vs ns) :
    t.PrunesVisits enter (.enter n :: vs) (n :: ns) := by
  intro s hs
  cases hs with
  | cons hnext hrest =>
    refine .enter hnext ?_
    rw [if_pos hn]
    exact h _ hrest

/-- Below a node that is not accepted nothing is listed. -/
theorem PrunesVisits.cons_skip (ht : t.Orderly) {n : Node} {vs : List Visit} {ns : List Node}
    (hn : enter n = false) (h : t.PrunesVisits enter vs ns) :
    t.PrunesVisits enter (.enter n :: (n.childNodes.flatMap Node.visits ++ .leave n :: vs))
      (n :: ns) := by
  intro s hs
  cases hs with
  | cons hnext hrest =>
    refine .enter hnext ?_
    rw [if_neg (Bool.eq_false_iff.mp hn)]
    exact h.cons_leave _ (ht.yields_skip hnext hrest)

/-- The visits of neighbouring subtrees, one behind the other. -/
theorem PrunesVisits.flatMap_visits {cs : List Node} {vs : List Visit} {ns : List Node}
    (hcs : ∀ c ∈ cs, ∀ {vs ns}, t.PrunesVisits enter vs ns →
      t.PrunesVisits enter (c.visits ++ vs) (c.walk enter ++ ns))
    (h : t.PrunesVisits enter vs ns) :
    t.PrunesVisits enter (cs.flatMap Node.visits ++ vs) (cs.flatMap (Node.walk enter) ++ ns) := by
  induction cs with
  | nil => exact h
  | cons c cs ih =>
    rw [List.flatMap_cons, List.flatMap_cons, List.append_assoc, List.append_assoc]
    exact hcs c List.mem_cons_self (ih fun d hd => hcs d (List.mem_cons_of_mem c hd))

/-- Of the visits of a subtree, the nodes of its walk are listed. -/
theorem PrunesVisits.visits (ht : t.Orderly) (n : Node) {vs : List Visit} {ns : List Node}
    (h : t.PrunesVisits enter vs ns) : t.PrunesVisits enter (n.visits ++ vs) (n.walk enter ++ ns) := by
  induction n using Node.childInduction generalizing vs ns with
  | step n ih =>
    rw [Node.visits_eq, List.cons_append, List.cons_append, List.append_assoc,
      List.singleton_append]
    cases hn : enter n with
    | true =>
      rw [Node.walk_eq, if_pos hn, List.cons_append]
      exact .cons_enter hn (.flatMap_visits ih h.cons_leave)
    | false =>
      rw [Node.walk_of_not_enter hn, List.singleton_append]
      exact .cons_skip ht hn h

/-- The pruned traversal of a subtree ends, and has listed the nodes of the walk. -/
theorem prunesTo_start_iff (ht : t.Orderly) (enter : Node → Bool) (n : Node) (ns : List Node) :
    t.PrunesTo enter (t.start n) ns ↔ ns = n.walk enter := by
  have hwalk : t.PrunesTo enter (t.start n) (n.walk enter) := by
    have hvisits : t.PrunesVisits enter (n.visits ++ []) (n.walk enter ++ []) := .visits ht n .nil
    rw [List.append_nil, List.append_nil] at hvisits
    exact hvisits _ (ht.yields_start n)
  constructor
  · intro h
    exact h.unique hwalk
  · rintro rfl
    exact hwalk

end Traversal

/-! ## The way of a cursor -/

/-- The next sibling of a child is the head of the children behind it. -/
theorem Node.nextSibling?_eq_head? {n c : Node} {front back : List Node}
    (hsplit : n.childNodes = front ++ c :: back) : c.nextSibling? = back.head? := by
  have hchild : c ∈ n.childNodes := hsplit ▸ List.mem_append_right front List.mem_cons_self
  have hordered := pairwise_index_childNodes n
  rw [hsplit, List.pairwise_append, List.pairwise_cons] at hordered
  obtain ⟨-, ⟨hback, -⟩, hfront⟩ := hordered
  have hnone : front.find? (fun m => c.index < m.index) = none := by
    rw [List.find?_eq_none]
    intro m hm
    have := hfront m hm c List.mem_cons_self
    simp
    omega
  rw [nextSibling?, parent?_of_mem_childNodes hchild, Option.bind_some, hsplit, List.find?_append,
    hnone, Option.none_or, List.find?_cons_of_neg (by simp)]
  cases back with
  | nil => rfl
  | cons m back =>
    have hbehind := hback m List.mem_cons_self
    rw [List.find?_cons_of_pos (by simpa using hbehind), List.head?_cons]

namespace Cursor

/-- A cursor reports its next visit and goes on from the visit behind it. -/
theorem yields_cons_iff {origin : Node} {u : Option Visit} {v : Visit} {vs : List Visit} :
    traversal.Yields ⟨origin, u⟩ (v :: vs) ↔
      u = some v ∧ traversal.Yields ⟨origin, following? origin v⟩ vs := by
  constructor
  · intro h
    cases h with
    | cons hnext hrest =>
      obtain ⟨w, rfl, heq⟩ := Option.map_eq_some_iff.mp hnext
      obtain ⟨rfl, rfl⟩ := Prod.mk.inj heq
      exact ⟨rfl, hrest⟩
  · rintro ⟨rfl, hrest⟩
    exact .cons rfl hrest

/-- The first visit of the children from one on, or the leave of their parent. -/
def onward (n : Node) (cs : List Node) : Visit := (cs.head?.map .enter).getD (.leave n)

theorem following?_leave_of_child {origin n c : Node} {front back : List Node}
    (horigin : origin ∈ n.ancestors) (hsplit : n.childNodes = front ++ c :: back) :
    following? origin (.leave c) = some (onward n back) := by
  have hchild : c ∈ n.childNodes := hsplit ▸ List.mem_append_right front List.mem_cons_self
  have habove : origin ∈ c.properAncestors := by
    rwa [Node.properAncestors_of_mem_childNodes hchild]
  have hother : ¬ c.Same origin := fun hsame =>
    Node.not_same_of_mem_properAncestors habove hsame.symm
  rw [following?, if_neg hother, Node.nextSibling?_eq_head? hsplit,
    Node.parent?_of_mem_childNodes hchild, onward]
  cases back <;> rfl

/-- From the last children of a node on, a cursor goes through them and then leaves the node. -/
theorem yields_flatMap_visits {origin n : Node} {vs : List Visit} (horigin : origin ∈ n.ancestors)
    (hchildren : ∀ c ∈ n.childNodes, ∀ {vs : List Visit}, origin ∈ c.ancestors →
      traversal.Yields ⟨origin, following? origin (.leave c)⟩ vs →
      traversal.Yields ⟨origin, some (.enter c)⟩ (c.visits ++ vs))
    (h : traversal.Yields ⟨origin, following? origin (.leave n)⟩ vs) {front back : List Node}
    (hsplit : n.childNodes = front ++ back) :
    traversal.Yields ⟨origin, some (onward n back)⟩
      (back.flatMap Node.visits ++ .leave n :: vs) := by
  induction back generalizing front with
  | nil => exact yields_cons_iff.mpr ⟨rfl, h⟩
  | cons c back ih =>
    have hchild : c ∈ n.childNodes := hsplit ▸ List.mem_append_right front List.mem_cons_self
    have hbelow : origin ∈ c.ancestors := by
      rw [Node.ancestors_of_mem_childNodes hchild]
      exact List.mem_cons_of_mem c horigin
    rw [List.flatMap_cons, List.append_assoc]
    apply hchildren c hchild hbelow
    rw [following?_leave_of_child horigin hsplit]
    exact ih (hsplit.trans (List.append_cons front c back))

/-- A cursor goes through a subtree from the entry of its top on. -/
theorem yields_visits {origin : Node} (n : Node) {vs : List Visit} (horigin : origin ∈ n.ancestors)
    (h : traversal.Yields ⟨origin, following? origin (.leave n)⟩ vs) :
    traversal.Yields ⟨origin, some (.enter n)⟩ (n.visits ++ vs) := by
  induction n using Node.childInduction generalizing vs with
  | step n ih =>
    rw [Node.visits_eq, List.cons_append, List.cons_append, List.append_assoc,
      List.singleton_append]
    exact yields_cons_iff.mpr
      ⟨rfl, yields_flatMap_visits horigin ih h (List.nil_append n.childNodes).symm⟩

/-- Put at a later visit of its way, a cursor goes on from there in the same way. -/
theorem yields_of_append {origin : Node} {u : Option Visit} {us vs : List Visit} {v : Visit}
    (h : traversal.Yields ⟨origin, u⟩ (us ++ v :: vs)) :
    traversal.Yields ⟨origin, some v⟩ (v :: vs) := by
  induction us generalizing u with
  | nil =>
    obtain ⟨rfl, -⟩ := yields_cons_iff.mp h
    exact h
  | cons w us ih => exact ih (yields_cons_iff.mp h).2

theorem skip_of_enter {origin n : Node} :
    skip ⟨origin, following? origin (.enter n)⟩ = ⟨origin, some (.leave n)⟩ := by
  rw [following?, skip]
  cases h : n.childNodes.head? with
  | none => rfl
  | some c =>
    have hchild : c ∈ n.childNodes := List.mem_of_mem_head? h
    simp [Node.parent?_of_mem_childNodes hchild]

/-- A cursor goes through subtrees in order. -/
theorem orderly : traversal.Orderly where
  yields_start n := by
    have hend : traversal.Yields ⟨n, following? n (.leave n)⟩ [] := by
      rw [following?, if_pos (Node.Same.refl n)]
      exact .nil rfl
    have hvisits := yields_visits n (Node.mem_ancestors_self n) hend
    rwa [List.append_nil] at hvisits
  yields_skip := by
    intro s s' n vs hnext hrest
    obtain ⟨v, -, heq⟩ := Option.map_eq_some_iff.mp hnext
    obtain ⟨rfl, rfl⟩ := Prod.mk.inj heq
    show traversal.Yields (skip ⟨s.origin, following? s.origin (.enter n)⟩) _
    rw [skip_of_enter]
    exact yields_of_append hrest

end Cursor

/-! ## What a walk lists -/

namespace Node

/-- The nodes on the way from a root down to a node, the root included and the node left out. -/
def way (root n : Node) : List Node := n.properAncestors.filter fun c => root ∈ c.ancestors

/-- Whether a walk comes to a node: all nodes on the way are entered. -/
def opensTo (root : Node) (enter : Node → Bool) (n : Node) : Bool := (root.way n).all enter

variable {root n : Node} {enter : Node → Bool}

theorem opensTo_iff : root.opensTo enter n = true ↔
    ∀ c ∈ n.properAncestors, root ∈ c.ancestors → enter c = true := by
  simp only [opensTo, way, List.all_eq_true, List.mem_filter, decide_eq_true_eq, and_imp]

theorem mem_walk_iff_opensTo :
    n ∈ root.walk enter ↔ n ∈ root.preorder ∧ root.opensTo enter n = true := by
  rw [mem_walk_iff, mem_preorder_iff_ancestors, opensTo_iff]

theorem nodup_walk (root : Node) (enter : Node → Bool) : (root.walk enter).Nodup :=
  (nodup_preorder root).sublist (walk_sublist_preorder enter root)

/-- A walk lists the nodes of the full list to which the way is open. -/
theorem walk_eq_filter (root : Node) (enter : Node → Bool) :
    root.walk enter = root.preorder.filter (root.opensTo enter) := by
  have hopen : ∀ n ∈ root.walk enter, root.opensTo enter n = true := by
    intro n hn
    exact (mem_walk_iff_opensTo.mp hn).2
  have hsublist := (walk_sublist_preorder enter root).filter (root.opensTo enter)
  rw [List.filter_eq_self.mpr hopen] at hsublist
  have hperm : (root.walk enter).Perm (root.preorder.filter (root.opensTo enter)) := by
    refine (List.perm_ext_iff_of_nodup (nodup_walk root enter) ?_).mpr ?_
    · exact (nodup_preorder root).filter _
    · intro n
      rw [mem_walk_iff_opensTo, List.mem_filter]
  exact hsublist.eq_of_length hperm.length_eq

/-- Of what is at and below a node that is not entered, a walk comes to the node only. -/
theorem filter_opensTo_preorder (hn : n ∈ root.walk enter) (hclosed : enter n = false) :
    n.preorder.filter (root.opensTo enter) = [n] := by
  obtain ⟨hbelow, hopen⟩ := mem_walk_iff_opensTo.mp hn
  rw [preorder_eq, List.filter_cons_of_pos hopen, List.filter_eq_nil_iff.mpr]
  intro x hx hreached
  obtain ⟨c, hc, hxc⟩ := List.mem_flatMap.mp hx
  have habove : n ∈ x.properAncestors :=
    mem_properAncestors_trans (mem_properAncestors_of_mem_childNodes hc)
      (mem_preorder_iff_ancestors.mp hxc)
  have hentered := opensTo_iff.mp hreached n habove (mem_preorder_iff_ancestors.mp hbelow)
  rw [hclosed] at hentered
  cases hentered

/-- The way to the first node behind a subtree is part of the way to the subtree.  What is on it comes
before that node and not in the subtree, so it stands in front of the subtree.  There it is above
the subtree as well, which lies between. -/
theorem mem_properAncestors_of_behind {x c : Node} {front back : List Node}
    (hsplit : root.preorder = front ++ n.preorder ++ x :: back) (hroot : root ∈ c.ancestors)
    (hc : c ∈ x.properAncestors) : c ∈ n.properAncestors := by
  have hn : n ∈ n.preorder := mem_preorder_iff_ancestors.mpr (mem_ancestors_self n)
  have hbelow : n ∈ root.preorder := by
    rw [hsplit]
    exact List.mem_append_left _ (List.mem_append_right front hn)
  have hordered := pairwise_path_preorder root
  rw [hsplit, List.pairwise_append, List.pairwise_append, List.pairwise_cons] at hordered
  obtain ⟨⟨-, -, hfront⟩, ⟨hback, -⟩, hacross⟩ := hordered
  have habove := (mem_properAncestors_iff.mp hc).1
  have hnotIn : c ∉ n.preorder := by
    intro hcn
    have hxn : x ∈ n.preorder := by
      rw [mem_preorder_iff_ancestors] at hcn ⊢
      exact mem_ancestors_trans hcn habove
    exact (hacross x (List.mem_append_right front hxn) x List.mem_cons_self).ne rfl
  have hnotBehind : c ∉ x :: back := by
    have hcx := path_before_of_mem_properAncestors hc
    intro hbehind
    rcases List.mem_cons.mp hbehind with rfl | hlater
    · exact hcx.ne rfl
    · exact Std.Asymm.asymm _ _ hcx (hback c hlater)
  have hcfront : c ∈ front := by
    have hmem : c ∈ front ++ n.preorder ++ x :: back := by
      rwa [← hsplit, mem_preorder_iff_ancestors]
    have hbefore := (List.mem_append.mp hmem).resolve_right hnotBehind
    exact (List.mem_append.mp hbefore).resolve_right hnotIn
  have hcn := hfront c hcfront n hn
  have hnx := hacross n (List.mem_append_right front hn) x List.mem_cons_self
  have hsame : c.root = n.root := by
    rw [← root_of_mem_ancestors hroot,
      root_of_mem_ancestors (mem_preorder_iff_ancestors.mp hbelow)]
  refine mem_properAncestors_iff.mpr ⟨mem_ancestors_of_between hsame hcn hnx habove, ?_⟩
  intro heq
  exact hcn.ne (congrArg path heq)

/-- Behind a node that is not entered, a walk goes on with the first node behind its subtree. -/
theorem walk_resumes (hn : n ∈ root.walk enter) (hclosed : enter n = false) :
    ∃ front back, root.preorder = front ++ n.preorder ++ back ∧
      root.walk enter = front.filter (root.opensTo enter) ++ n :: back.filter (root.opensTo enter) ∧
      (back.filter (root.opensTo enter)).head? = back.head? := by
  obtain ⟨front, back, hsplit⟩ := preorder_infix_of_mem_preorder (mem_walk_iff_opensTo.mp hn).1
  refine ⟨front, back, hsplit.symm, ?_, ?_⟩
  · rw [walk_eq_filter, ← hsplit, List.filter_append, List.filter_append,
      filter_opensTo_preorder hn hclosed, List.append_assoc, List.singleton_append]
  · cases back with
    | nil => rfl
    | cons x back =>
      have hopen : root.opensTo enter x = true := by
        rw [opensTo_iff]
        intro c hc hroot
        have habove := mem_properAncestors_of_behind hsplit.symm hroot hc
        exact opensTo_iff.mp (mem_walk_iff_opensTo.mp hn).2 c habove hroot
      rw [List.filter_cons_of_pos hopen, List.head?_cons, List.head?_cons]

end Node

/-- Take any traversal that reports the visits of a subtree in order and skips to the leave of the node
that it just entered.  Pruned by a predicate it ends, and has listed the nodes that the walk lists:
those nodes of the full list to which the way from the root leads through accepted nodes only, each
once and in the order of the full list.  If everything is accepted, that is the full list.  A node
that is not accepted is listed itself, and next comes the first node behind its subtree, if there is
one. -/
theorem Traversal.prune_exact {σ : Type} {t : Traversal σ} (ht : t.Orderly) (root : Node)
    (enter : Node → Bool) :
    (∀ ns, t.PrunesTo enter (t.start root) ns ↔ ns = root.walk enter) ∧
    root.walk enter = root.preorder.filter (root.opensTo enter) ∧
    (root.walk enter).Nodup ∧
    (∀ ns, t.PrunesTo (fun _ => true) (t.start root) ns ↔ ns = root.preorder) ∧
    ∀ n ∈ root.walk enter, enter n = false →
      ∃ front back, root.preorder = front ++ n.preorder ++ back ∧
        root.walk enter =
          front.filter (root.opensTo enter) ++ n :: back.filter (root.opensTo enter) ∧
        (back.filter (root.opensTo enter)).head? = back.head? := by
  refine ⟨prunesTo_start_iff ht enter root, Node.walk_eq_filter root enter,
    Node.nodup_walk root enter, ?_, ?_⟩
  · intro ns
    rw [prunesTo_start_iff ht, Node.walk_true]
  · intro n hn hclosed
    exact Node.walk_resumes hn hclosed

/-- A cursor goes over a block and skips a lambda in the middle and, at the end, an empty block that
stands beside another one. -/
theorem Traversal.prune_exact_over_lambda :
    let name (x : String) := Tree.node .identifierName [.token .identifier x]
    let lambda := Tree.node .parenthesizedLambdaExpression [.node .block [name "hidden"]]
    let root : Node := ⟨0, .block, [name "a", lambda, name "b", .node .block [], .node .block []], []⟩
    let enter (n : Node) := n.kind != .parenthesizedLambdaExpression && n.path != [4]
    Cursor.traversal.Orderly ∧ ∃ ns,
      Cursor.traversal.PrunesTo enter (Cursor.traversal.start root) ns ∧
        ns.map Node.path = [[], [0], [1], [2], [3], [4]] := by
  intro name lambda root enter
  refine ⟨Cursor.orderly, root.walk enter, ?_, by decide +kernel⟩
  exact ((prune_exact Cursor.orderly root enter).1 _).mpr rfl

end LiveEdit
