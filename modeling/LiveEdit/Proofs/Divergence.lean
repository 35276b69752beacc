import LiveEdit.Proofs.LeafSearch

/-!
# Reports of divergence

While `Node.leafAndPartner` goes down two trees, it reports the first place at which their kinds
differ, and goes on without the right side.  `Visits` are the places that the walk comes through,
and `DivergeAt` is a first difference of kinds.

* `events_of_none`, `events_of_ne`, `events_of_child` and `events_of_no_child` say what one step of
  the walk reports.
* `reports_of_search`: a walk reports one first difference, or none.
* `mem_events_iff`: what a whole walk reports is the first difference, if the walk visits it.
* `right_eq_none_of_divergeAt`: behind a difference there is no partner.
* `not_divergeAt_of_missing`: a right side that is lost for want of a node leaves no difference.
-/

namespace LiveEdit

/-- The walk to an offset from a node comes through the node at a path. -/
inductive Visits (offset : Nat) : Node → Path → Prop
  | start (n : Node) : Visits offset n []
  | step {n m : Node} {i : Nat} {q : Path} (hchild : n.childAt? offset = some (i, .node m))
      (hvisits : Visits offset m q) : Visits offset n (i :: q)

namespace Node

/-- The nodes at a path have different kinds, and the kinds agree at every shorter path. -/
structure DivergeAt (left right : Node) (q : Path) (a b : Node) : Prop where
  above : AgreeAbove left right q
  left_eq : left.nodeAt? q = some a
  right_eq : right.nodeAt? q = some b
  kind_ne : a.kind ≠ b.kind

/-! ## Places of a walk -/

/-- A walk visits the prefixes of the path of its search. -/
theorem visits_iff {left : Node} {offset : Nat} {p : Path} {found : Option Token}
    (hsearch : Search offset left p found) (q : Path) : Visits offset left q ↔ q <+: p := by
  induction hsearch generalizing q with
  | lost hchild | leaf hchild =>
    rw [List.prefix_nil]
    constructor
    · intro hvisits
      cases hvisits with
      | start => rfl
      | step hnode _ =>
        rw [hchild] at hnode
        cases hnode
    · rintro rfl
      exact .start _
  | @down n m i p found hchild tail ih =>
    constructor
    · intro hvisits
      cases hvisits with
      | start => exact List.nil_prefix
      | step hnode hvisits =>
        rw [hchild, Option.some.injEq, Prod.mk.injEq, Element.node.injEq] at hnode
        obtain ⟨rfl, rfl⟩ := hnode
        exact List.cons_prefix_cons.mpr ⟨rfl, (ih _).mp hvisits⟩
    · intro hprefix
      cases q with
      | nil => exact .start n
      | cons j q =>
        obtain ⟨rfl, hq⟩ := List.cons_prefix_cons.mp hprefix
        exact .step hchild ((ih q).mpr hq)

/-! ## First differences -/

section

variable {left right a b : Node} {q : Path}

theorem divergeAt_nil_iff :
    DivergeAt left right [] a b ↔ left = a ∧ right = b ∧ left.kind ≠ right.kind := by
  constructor
  · intro h
    obtain rfl := Option.some.inj h.left_eq
    obtain rfl := Option.some.inj h.right_eq
    exact ⟨rfl, rfl, h.kind_ne⟩
  · rintro ⟨rfl, rfl, hne⟩
    exact ⟨agreeAbove_nil left right, rfl, rfl, hne⟩

theorem divergeAt_cons_iff {l r : Node} {i : Nat} (hl : left.childNode? i = some l)
    (hr : right.childNode? i = some r) (hkind : left.kind = right.kind) :
    DivergeAt left right (i :: q) a b ↔ DivergeAt l r q a b := by
  constructor
  · intro h
    exact ⟨((agreeAbove_cons hl hr q).mp h.above).2, (nodeAt?_cons hl q).symm.trans h.left_eq,
      (nodeAt?_cons hr q).symm.trans h.right_eq, h.kind_ne⟩
  · intro h
    exact ⟨(agreeAbove_cons hl hr q).mpr ⟨hkind, h.above⟩, (nodeAt?_cons hl q).trans h.left_eq,
      (nodeAt?_cons hr q).trans h.right_eq, h.kind_ne⟩

/-- A first difference below nodes of one kind lies below a pair of children. -/
theorem DivergeAt.exists_child {l : Node} {i : Nat} {p : Path} (h : DivergeAt left right q a b)
    (hkind : left.kind = right.kind) (hq : q <+: i :: p) (hl : left.childNode? i = some l) :
    ∃ r q', right.childNode? i = some r ∧ q' <+: p ∧ DivergeAt l r q' a b := by
  cases q with
  | nil => exact absurd hkind (divergeAt_nil_iff.mp h).2.2
  | cons j q =>
    obtain ⟨rfl, hbelow⟩ := List.cons_prefix_cons.mp hq
    obtain ⟨r, hr, -⟩ := Option.bind_eq_some_iff.mp h.right_eq
    exact ⟨r, q, hr, hbelow, (divergeAt_cons_iff hl hr hkind).mp h⟩

/-- Two first differences along one path are one. -/
theorem DivergeAt.unique {a' b' : Node} {q' p : Path} (h : DivergeAt left right q a b)
    (h' : DivergeAt left right q' a' b') (hq : q <+: p) (hq' : q' <+: p) :
    q = q' ∧ a = a' ∧ b = b' := by
  have hnotbelow : ∀ {q₁ q₂ : Path} {a₁ a₂ b₁ b₂ : Node}, DivergeAt left right q₁ a₁ b₁ →
      DivergeAt left right q₂ a₂ b₂ → q₁ <+: q₂ → q₁ = q₂ := by
    intro q₁ q₂ a₁ a₂ b₁ b₂ h₁ h₂ hprefix
    obtain ⟨s, rfl⟩ := hprefix
    cases s with
    | nil => rw [List.append_nil]
    | cons i s =>
      have hagree := h₂.above q₁ i ⟨s, by simp⟩
      exact absurd ((kindsAgree_iff h₁.left_eq h₁.right_eq).mp hagree) h₁.kind_ne
  have heq : q = q' := by
    rcases List.prefix_or_prefix_of_prefix hq hq' with hprefix | hprefix
    · exact hnotbelow h h' hprefix
    · exact (hnotbelow h' h hprefix).symm
  subst heq
  exact ⟨rfl, Option.some.inj (h.left_eq.symm.trans h'.left_eq),
    Option.some.inj (h.right_eq.symm.trans h'.right_eq)⟩

/-- The kinds do not agree along a path that goes through a difference. -/
theorem DivergeAt.not_agreeThrough {p : Path} (h : DivergeAt left right q a b) (hq : q <+: p) :
    ¬ AgreeThrough left right p := by
  intro hagree
  exact h.kind_ne ((kindsAgree_iff h.left_eq h.right_eq).mp (hagree q hq))

/-- A step for which the right tree has no node leads to no difference, nor does a longer path. -/
theorem not_divergeAt_of_missing {q' : Path} {i : Nat} (hmissing : right.nodeAt? (q ++ [i]) = none)
    (hbelow : q ++ [i] <+: q') : ¬ DivergeAt left right q' a b := by
  intro h
  obtain ⟨c, hc⟩ := exists_nodeAt?_of_prefix h.right_eq hbelow
  rw [hmissing] at hc
  cases hc

/-- At an index without child, or with a token, there is no node. -/
theorem nodeAt?_concat_eq_none {c : Node} {i : Nat} (hc : right.nodeAt? q = some c)
    (hmissing : c.elements.length ≤ i ∨ ∃ t, c.elements[i]? = some (.token t)) :
    right.nodeAt? (q ++ [i]) = none := by
  rw [nodeAt?_append, hc, Option.bind_some, nodeAt?_singleton, childNode?]
  rcases hmissing with hlength | ⟨t, ht⟩
  · rw [List.getElem?_eq_none hlength]
    rfl
  · rw [ht]
    rfl

end

/-! ## What a walk reports -/

section

variable {left : Node} {offset : Nat} {p : Path} {found : Option Token}

/-- Without a right side there is nothing to report. -/
theorem events_of_none (hsearch : Search offset left p found) (depth : Nat) :
    (leafAndPartnerFrom depth left offset none).events = [] := by
  induction hsearch generalizing depth with
  | lost hchild => rw [leafAndPartnerFrom_of_none hchild]; rfl
  | leaf hchild => rw [leafAndPartnerFrom_of_token hchild]; rfl
  | down hchild tail ih =>
    rw [leafAndPartnerFrom_of_node hchild]
    exact ih (depth + 1)

theorem agreeing_of_ne {right : Node} (hne : left.kind ≠ right.kind) (depth : Nat) :
    left.agreeing (some right) depth =
      ⟨none, [.partnerDiverged depth left.kind right.kind]⟩ := by
  rw [agreeing, if_neg hne.symm]

theorem agreeing_of_eq {right : Node} (hkind : left.kind = right.kind) (depth : Nat) :
    left.agreeing (some right) depth = ⟨some right, []⟩ := by
  rw [agreeing, if_pos hkind.symm]

/-- Different kinds are reported, and nothing after them. -/
theorem events_of_ne (hsearch : Search offset left p found) {right : Node}
    (hne : left.kind ≠ right.kind) (depth : Nat) :
    (leafAndPartnerFrom depth left offset (some right)).events =
      [.partnerDiverged depth left.kind right.kind] := by
  cases hsearch with
  | lost hchild => rw [leafAndPartnerFrom_of_none hchild, agreeing_of_ne hne]
  | leaf hchild => rw [leafAndPartnerFrom_of_token hchild, agreeing_of_ne hne]
  | down hchild tail =>
    rw [leafAndPartnerFrom_of_node hchild, agreeing_of_ne hne, Option.bind_none, Logged.after,
      events_of_none tail, List.append_nil]

/-- Under equal kinds, a walk reports what the walk from the child reports. -/
theorem events_of_child {m right : Node} {i : Nat}
    (hchild : left.childAt? offset = some (i, .node m)) (hkind : left.kind = right.kind)
    (depth : Nat) :
    (leafAndPartnerFrom depth left offset (some right)).events =
      (leafAndPartnerFrom (depth + 1) m offset (right.childNode? i)).events := by
  rw [leafAndPartnerFrom_of_node hchild, agreeing_of_eq hkind, Option.bind_some]
  rfl

/-- Under equal kinds, a walk that ends reports nothing. -/
theorem events_of_no_child {right : Node} (hsearch : Search offset left [] found)
    (hkind : left.kind = right.kind) (depth : Nat) :
    (leafAndPartnerFrom depth left offset (some right)).events = [] := by
  cases hsearch with
  | lost hchild => rw [leafAndPartnerFrom_of_none hchild, agreeing_of_eq hkind]
  | leaf hchild => rw [leafAndPartnerFrom_of_token hchild, agreeing_of_eq hkind]

/-- What a walk along a path reports: the first difference, or nothing if there is none. -/
def Reports (left right : Node) (p : Path) (depth : Nat) (events : List Event) : Prop :=
  (∃ q a b, q <+: p ∧ DivergeAt left right q a b ∧
    events = [.partnerDiverged (depth + q.length) a.kind b.kind]) ∨
  (∀ q a b, q <+: p → ¬ DivergeAt left right q a b) ∧ events = []

/-- A walk that starts at different kinds reports them. -/
theorem reports_of_ne (hsearch : Search offset left p found) {right : Node}
    (hne : left.kind ≠ right.kind) (depth : Nat) :
    Reports left right p depth (leafAndPartnerFrom depth left offset (some right)).events :=
  .inl ⟨[], left, right, List.nil_prefix, divergeAt_nil_iff.mpr ⟨rfl, rfl, hne⟩,
    events_of_ne hsearch hne depth⟩

/-- A walk that ends where it starts reports the kinds there if they differ. -/
theorem reports_of_end (hsearch : Search offset left [] found) (right : Node) (depth : Nat) :
    Reports left right [] depth (leafAndPartnerFrom depth left offset (some right)).events := by
  by_cases hkind : left.kind = right.kind
  · refine .inr ⟨?_, events_of_no_child hsearch hkind depth⟩
    intro q a b hq h
    obtain rfl := List.prefix_nil.mp hq
    exact (divergeAt_nil_iff.mp h).2.2 hkind
  · exact reports_of_ne hsearch hkind depth

/-- A walk reports the first difference along the path of its search. -/
theorem reports_of_search (hsearch : Search offset left p found) (right : Node) (depth : Nat) :
    Reports left right p depth (leafAndPartnerFrom depth left offset (some right)).events := by
  induction hsearch generalizing right depth with
  | lost hchild => exact reports_of_end (.lost hchild) right depth
  | leaf hchild => exact reports_of_end (.leaf hchild) right depth
  | @down n m i p found hchild tail ih =>
    by_cases hkind : n.kind = right.kind
    · rw [events_of_child hchild hkind]
      have hm := childNode?_of_childAt? hchild
      cases hr : right.childNode? i with
      | none =>
        refine .inr ⟨?_, events_of_none tail (depth + 1)⟩
        intro q a b hq h
        obtain ⟨r, q', hr', -⟩ := h.exists_child hkind hq hm
        rw [hr] at hr'
        cases hr'
      | some r =>
        rcases ih r (depth + 1) with ⟨q, a, b, hq, h, hevents⟩ | ⟨hnone, hevents⟩
        · refine .inl ⟨i :: q, a, b, List.cons_prefix_cons.mpr ⟨rfl, hq⟩,
            (divergeAt_cons_iff hm hr hkind).mpr h, ?_⟩
          rw [hevents, List.length_cons, Nat.add_assoc, Nat.add_comm 1]
        · refine .inr ⟨?_, hevents⟩
          intro q a b hq h
          obtain ⟨r', q', hr', hq', h'⟩ := h.exists_child hkind hq hm
          obtain rfl := Option.some.inj (hr.symm.trans hr')
          exact hnone q' a b hq' h'
    · exact reports_of_ne (.down hchild tail) hkind depth

end

/-! ## One report, and a final one -/

section

variable {left right a b : Node} {offset : Nat} {q : Path}

/-- What is reported is the first difference, if the walk visits it. -/
theorem mem_events_iff (left right : Node) (offset : Nat) (e : Event) :
    e ∈ (left.leafAndPartner offset right).events ↔
      ∃ q a b, Visits offset left q ∧ DivergeAt left right q a b ∧
        e = .partnerDiverged q.length a.kind b.kind := by
  obtain ⟨p, found, hsearch⟩ := exists_search left offset
  simp only [visits_iff hsearch]
  rw [leafAndPartner]
  rcases reports_of_search hsearch right 0 with ⟨q, a, b, hq, h, hevents⟩ | ⟨hnone, hevents⟩
  · rw [hevents, List.mem_singleton, Nat.zero_add]
    constructor
    · intro he
      exact ⟨q, a, b, hq, h, he⟩
    · intro he
      obtain ⟨q', a', b', hq', h', rfl⟩ := he
      obtain ⟨rfl, rfl, rfl⟩ := h.unique h' hq hq'
      rfl
  · rw [hevents]
    refine iff_of_false List.not_mem_nil ?_
    intro he
    obtain ⟨q, a, b, hq, h, -⟩ := he
    exact hnone q a b hq h

theorem length_events_le_one (left right : Node) (offset : Nat) :
    (left.leafAndPartner offset right).events.length ≤ 1 := by
  obtain ⟨p, found, hsearch⟩ := exists_search left offset
  rw [leafAndPartner]
  rcases reports_of_search hsearch right 0 with ⟨q, a, b, -, -, hevents⟩ | ⟨-, hevents⟩
  · rw [hevents]
    exact Nat.le_refl 1
  · rw [hevents]
    exact Nat.zero_le 1

/-- Behind a difference that the walk visits there is no partner. -/
theorem right_eq_none_of_divergeAt (hvisits : Visits offset left q)
    (h : DivergeAt left right q a b) {m : LeafMatch}
    (hm : (left.leafAndPartner offset right).value = some m) : m.right = none := by
  obtain ⟨p, found, hsearch⟩ := exists_search left offset
  rw [leafAndPartner] at hm
  cases found with
  | none =>
    rw [value_of_search_none hsearch] at hm
    cases hm
  | some t =>
    obtain ⟨m', hm', -, -, hright⟩ := value_of_search_some hsearch 0 (some right)
    obtain rfl := Option.some.inj (hm'.symm.trans hm)
    refine Option.eq_none_iff_forall_ne_some.mpr ?_
    intro r hr
    obtain ⟨s, hs, hagree, -⟩ := (hright r).mp hr
    obtain rfl := Option.some.inj hs
    exact h.not_agreeThrough ((visits_iff hsearch q).mp hvisits) hagree

/-- A right side that is lost because it has no node for a step is not reported. -/
theorem events_eq_nil_of_missing {i : Nat} (hvisits : Visits offset left (q ++ [i]))
    (hagree : AgreeThrough left right q) (hmissing : right.nodeAt? (q ++ [i]) = none) :
    (left.leafAndPartner offset right).events = [] := by
  obtain ⟨p, found, hsearch⟩ := exists_search left offset
  have hq := (visits_iff hsearch _).mp hvisits
  refine List.eq_nil_iff_forall_not_mem.mpr ?_
  intro e he
  obtain ⟨q', a, b, hvisits', h, -⟩ := (mem_events_iff left right offset e).mp he
  have hq' := (visits_iff hsearch q').mp hvisits'
  rcases List.prefix_or_prefix_of_prefix hq hq' with hbelow | habove
  · exact not_divergeAt_of_missing hmissing hbelow h
  · rcases List.prefix_concat_iff.mp habove with rfl | habove
    · exact not_divergeAt_of_missing hmissing (List.prefix_refl _) h
    · exact h.not_agreeThrough habove hagree

end

/-- What the walk to an offset reports, for every pair of nodes and every offset.

It reports one event at most, and it reports one if and only if it visits a node whose counterpart
at the same path is a node of another kind, while at all shorter paths the counterparts are nodes
of the same kind.  The event names the length of that path and the two kinds.  If there is a
report, the walk answers nothing, or a token without partner.  A right side that is lost because
it has no child at an index, or a token, is not reported. -/
theorem divergence_reported_once (left right : Node) (offset : Nat) :
    (left.leafAndPartner offset right).events.length ≤ 1 ∧
    (∀ e, e ∈ (left.leafAndPartner offset right).events ↔
      ∃ q a b, Visits offset left q ∧ left.nodeAt? q = some a ∧ right.nodeAt? q = some b ∧
        a.kind ≠ b.kind ∧ AgreeAbove left right q ∧
        e = .partnerDiverged q.length a.kind b.kind) ∧
    ((left.leafAndPartner offset right).events ≠ [] →
      (left.leafAndPartner offset right).value = none ∨
        ∃ m, (left.leafAndPartner offset right).value = some m ∧ m.right = none) ∧
    ∀ q i c, Visits offset left (q ++ [i]) → AgreeThrough left right q →
      right.nodeAt? q = some c →
        c.elements.length ≤ i ∨ (∃ t, c.elements[i]? = some (.token t)) →
          (left.leafAndPartner offset right).events = [] := by
  refine ⟨length_events_le_one left right offset, ?_, ?_, ?_⟩
  · intro e
    rw [mem_events_iff]
    constructor
    · rintro ⟨q, a, b, hvisits, h, rfl⟩
      exact ⟨q, a, b, hvisits, h.left_eq, h.right_eq, h.kind_ne, h.above, rfl⟩
    · rintro ⟨q, a, b, hvisits, ha, hb, hne, habove, rfl⟩
      exact ⟨q, a, b, hvisits, ⟨habove, ha, hb, hne⟩, rfl⟩
  · intro hevents
    obtain ⟨e, he⟩ := List.exists_mem_of_ne_nil _ hevents
    obtain ⟨q, a, b, hvisits, h, -⟩ := (mem_events_iff left right offset e).mp he
    cases hm : (left.leafAndPartner offset right).value with
    | none => exact .inl rfl
    | some m => exact .inr ⟨m, rfl, right_eq_none_of_divergeAt hvisits h hm⟩
  · intro q i c hvisits hagree hc hmissing
    exact events_eq_nil_of_missing hvisits hagree (nodeAt?_concat_eq_none hc hmissing)

/-- A name in a statement that has become a `return`.  The kinds of the two names agree again, but
the one report is about the statements, and the name has no partner.  A walk past the end of the
right tree reports nothing. -/
theorem divergence_reported_once_in_statement :
    let name := Tree.node .identifierName [.token .identifier "a"]
    let root (version : Nat) (ts : List Tree) : Node := ⟨version, .block, ts, []⟩
    let left := root 0 [.node .expressionStatement [name]]
    let right := root 1 [.node .returnStatement [name]]
    let short := root 1 []
    (left.leafAndPartner 0 right).events =
        [.partnerDiverged 1 .expressionStatement .returnStatement] ∧
      (∃ m, (left.leafAndPartner 0 right).value = some m ∧ m.right = none) ∧
      Visits 0 left [0] ∧ short.elements.length ≤ 0 ∧
      (left.leafAndPartner 0 short).events = [] := by
  intro name root left right short
  have hevents : (left.leafAndPartner 0 right).events =
      [.partnerDiverged 1 .expressionStatement .returnStatement] := by decide +kernel
  have hvisits : Visits 0 left [0] :=
    .step (m := ⟨0, .expressionStatement, [name], [⟨.block, [], []⟩]⟩) rfl (.start _)
  have hagree : AgreeThrough left short [] := agreeThrough_nil.mpr rfl
  obtain ⟨-, -, hfinal, -⟩ := divergence_reported_once left right 0
  obtain ⟨-, -, -, hlost⟩ := divergence_reported_once left short 0
  have hsome : (left.leafAndPartner 0 right).value ≠ none := by decide +kernel
  exact ⟨hevents, (hfinal (by rw [hevents]; exact List.cons_ne_nil _ _)).resolve_left hsome, hvisits,
    Nat.le_refl 0, hlost [] 0 short hvisits hagree rfl (.inl (Nat.le_refl 0))⟩

end Node

end LiveEdit
