import LiveEdit.Proofs.Descent

/-!
# The partner of a node

`Node.partner` finds its way down by offsets and compares nodes by their stored copies.  Here the
same walk is described by paths: `partnerAlong` goes down two trees along a path, and
`partnerFrom_eq_partnerAlong` says that the walk by offsets is that walk.

* `KindsAgree` compares the kinds of the two trees at one path, `AgreeAbove` at all shorter paths,
  and `AgreeThrough` at both: `agreeThrough_iff`.
* `partnerAlong_eq_some_iff`, `partnerAlong_eq_none_iff` and `partnerAlong_eq_error_iff` say when
  the walk along a path arrives, when it is lost, and when it stops at different kinds.
* `partner_outcome` joins the two descriptions, and `partner_eq_ok_some_iff` is the part of it that
  later proofs use.
-/

namespace LiveEdit.Node

/-! ## Kinds along a path -/

/-- The nodes at a path below two nodes have one kind. -/
def KindsAgree (left right : Node) (p : Path) : Prop :=
  ∃ a b, left.nodeAt? p = some a ∧ right.nodeAt? p = some b ∧ a.kind = b.kind

/-- The kinds agree at every proper prefix of a path. -/
def AgreeAbove (left right : Node) (p : Path) : Prop :=
  ∀ q i, q ++ [i] <+: p → KindsAgree left right q

theorem kindsAgree_iff {left right a b : Node} {p : Path} (ha : left.nodeAt? p = some a)
    (hb : right.nodeAt? p = some b) : KindsAgree left right p ↔ a.kind = b.kind := by
  constructor
  · intro h
    obtain ⟨a', b', ha', hb', hkind⟩ := h
    rw [ha, Option.some.injEq] at ha'
    rw [hb, Option.some.injEq] at hb'
    rwa [ha', hb']
  · intro hkind
    exact ⟨a, b, ha, hb, hkind⟩

theorem kindsAgree_nil {left right : Node} :
    KindsAgree left right [] ↔ left.kind = right.kind :=
  kindsAgree_iff rfl rfl

theorem nodeAt?_cons {n c : Node} {i : Nat} (hc : n.childNode? i = some c) (p : Path) :
    n.nodeAt? (i :: p) = c.nodeAt? p := by
  rw [nodeAt?, hc, Option.bind_some]

theorem kindsAgree_cons {left right l r : Node} {i : Nat} (hl : left.childNode? i = some l)
    (hr : right.childNode? i = some r) (p : Path) :
    KindsAgree left right (i :: p) ↔ KindsAgree l r p := by
  rw [KindsAgree, nodeAt?_cons hl, nodeAt?_cons hr, KindsAgree]

/-- A path that goes on below a prefix of `i :: p` goes on at once, or below a prefix of `p`. -/
theorem concat_prefix_cons_iff {q p : Path} {i j : Nat} :
    q ++ [j] <+: i :: p ↔ (q = [] ∧ j = i) ∨ ∃ q', q = i :: q' ∧ q' ++ [j] <+: p := by
  cases q with
  | nil => simp
  | cons k q =>
    rw [List.cons_append, List.cons_prefix_cons]
    constructor
    · intro h
      rcases h with ⟨rfl, hq⟩
      exact .inr ⟨q, rfl, hq⟩
    · intro h
      rcases h with ⟨hnil, -⟩ | ⟨q', heq, hq⟩
      · cases hnil
      · obtain ⟨rfl, rfl⟩ := List.cons.inj heq
        exact ⟨rfl, hq⟩

theorem agreeAbove_nil (left right : Node) : AgreeAbove left right [] := by
  intro q i hbelow
  have hlength := hbelow.length_le
  simp at hlength

theorem AgreeAbove.kind_eq {left right : Node} {i : Nat} {p : Path}
    (hagree : AgreeAbove left right (i :: p)) : left.kind = right.kind :=
  kindsAgree_nil.mp (hagree [] i (concat_prefix_cons_iff.mpr (.inl ⟨rfl, rfl⟩)))

theorem agreeAbove_singleton {left right : Node} {i : Nat} :
    AgreeAbove left right [i] ↔ left.kind = right.kind := by
  constructor
  · exact AgreeAbove.kind_eq
  · intro hkind q j hbelow
    rcases concat_prefix_cons_iff.mp hbelow with ⟨rfl, rfl⟩ | ⟨q', rfl, hq⟩
    · exact kindsAgree_nil.mpr hkind
    · exact absurd hq (by simp)

theorem agreeAbove_cons {left right l r : Node} {i : Nat} (hl : left.childNode? i = some l)
    (hr : right.childNode? i = some r) (p : Path) :
    AgreeAbove left right (i :: p) ↔ left.kind = right.kind ∧ AgreeAbove l r p := by
  constructor
  · intro hagree
    refine ⟨hagree.kind_eq, ?_⟩
    intro q j hbelow
    exact (kindsAgree_cons hl hr q).mp
      (hagree (i :: q) j (concat_prefix_cons_iff.mpr (.inr ⟨q, rfl, hbelow⟩)))
  · intro h q j hbelow
    rcases h with ⟨hkind, hagree⟩
    rcases concat_prefix_cons_iff.mp hbelow with ⟨rfl, rfl⟩ | ⟨q', rfl, hq⟩
    · exact kindsAgree_nil.mpr hkind
    · exact (kindsAgree_cons hl hr q').mpr (hagree q' j hq)

/-- The kinds agree at every prefix of a path, the path included. -/
def AgreeThrough (left right : Node) (p : Path) : Prop :=
  ∀ q, q <+: p → KindsAgree left right q

theorem AgreeThrough.kind_eq {left right : Node} {p : Path}
    (hagree : AgreeThrough left right p) : left.kind = right.kind :=
  kindsAgree_nil.mp (hagree [] List.nil_prefix)

/-- The kinds agree along a path if they agree above its end and at its end. -/
theorem agreeThrough_iff {left right : Node} {p : Path} :
    AgreeThrough left right p ↔ AgreeAbove left right p ∧ KindsAgree left right p := by
  constructor
  · intro h
    refine ⟨?_, h p (List.prefix_refl p)⟩
    intro q i hq
    exact h q ((List.prefix_append q [i]).trans hq)
  · intro h q hq
    rcases h with ⟨habove, hend⟩
    obtain ⟨r, rfl⟩ := hq
    cases r with
    | nil => rwa [List.append_nil] at hend
    | cons i r => exact habove q i ⟨r, by simp⟩

theorem agreeThrough_nil {left right : Node} :
    AgreeThrough left right [] ↔ left.kind = right.kind := by
  rw [agreeThrough_iff, kindsAgree_nil]
  exact and_iff_right (agreeAbove_nil left right)

theorem agreeThrough_cons {left right l r : Node} {i : Nat} (hl : left.childNode? i = some l)
    (hr : right.childNode? i = some r) (p : Path) :
    AgreeThrough left right (i :: p) ↔ left.kind = right.kind ∧ AgreeThrough l r p := by
  rw [agreeThrough_iff, agreeThrough_iff, agreeAbove_cons hl hr, kindsAgree_cons hl hr, and_assoc]

/-! ## The walk along a path -/

/-- Two trees walked down side by side along a path.  The kinds have to agree above the end of
the path, and the right walk is lost where the right tree has no node. -/
def partnerAlong (left right : Node) : Path → Except PartnerFault (Option Node)
  | [] => .ok (some right)
  | i :: p =>
    if left.kind ≠ right.kind then .error (.diverged left.kind right.kind)
    else
      match left.childNode? i, right.childNode? i with
      | some l, some r => partnerAlong l r p
      | _, _ => .ok none

theorem partnerAlong_of_ne {left right : Node} (hkind : left.kind ≠ right.kind) (i : Nat)
    (p : Path) :
    partnerAlong left right (i :: p) = .error (.diverged left.kind right.kind) := by
  rw [partnerAlong, if_pos hkind]

theorem partnerAlong_of_none {left right : Node} {i : Nat} (hkind : left.kind = right.kind)
    (hr : right.childNode? i = none) (p : Path) :
    partnerAlong left right (i :: p) = .ok none := by
  rw [partnerAlong, if_neg (fun hne => hne hkind), hr]
  cases left.childNode? i <;> rfl

theorem partnerAlong_of_some {left right l r : Node} {i : Nat} (hkind : left.kind = right.kind)
    (hl : left.childNode? i = some l) (hr : right.childNode? i = some r) (p : Path) :
    partnerAlong left right (i :: p) = partnerAlong l r p := by
  rw [partnerAlong, if_neg (fun hne => hne hkind), hl, hr]

/-- The walk arrives if the kinds agree on the way and the right tree has a node at the end. -/
theorem partnerAlong_eq_some_iff {left right target : Node} {p : Path}
    (hp : left.nodeAt? p = some target) (m : Node) :
    partnerAlong left right p = .ok (some m) ↔
      AgreeAbove left right p ∧ right.nodeAt? p = some m := by
  induction p generalizing left right with
  | nil =>
    simp only [partnerAlong, nodeAt?, Except.ok.injEq, agreeAbove_nil, true_and]
  | cons i p ih =>
    obtain ⟨l, hl, hlp⟩ := Option.bind_eq_some_iff.mp hp
    by_cases hkind : left.kind = right.kind
    · cases hr : right.childNode? i with
      | none => simp [partnerAlong_of_none hkind hr, nodeAt?, hr]
      | some r =>
        rw [partnerAlong_of_some hkind hl hr, ih hlp, agreeAbove_cons hl hr, nodeAt?_cons hr]
        simp only [hkind, true_and]
    · rw [partnerAlong_of_ne hkind]
      constructor
      · intro h
        cases h
      · intro h
        rcases h with ⟨hagree, -⟩
        exact absurd hagree.kind_eq hkind

/-- The walk is lost where the right tree has no node, if the kinds agree up to there. -/
theorem partnerAlong_eq_none_iff {left right target : Node} {p : Path}
    (hp : left.nodeAt? p = some target) :
    partnerAlong left right p = .ok none ↔
      ∃ q i, q ++ [i] <+: p ∧ AgreeAbove left right (q ++ [i]) ∧
        right.nodeAt? (q ++ [i]) = none := by
  induction p generalizing left right with
  | nil => simp [partnerAlong]
  | cons i p ih =>
    obtain ⟨l, hl, hlp⟩ := Option.bind_eq_some_iff.mp hp
    by_cases hkind : left.kind = right.kind
    · cases hr : right.childNode? i with
      | none =>
        refine iff_of_true (partnerAlong_of_none hkind hr p) ⟨[], i, ?_, ?_, ?_⟩
        · exact concat_prefix_cons_iff.mpr (.inl ⟨rfl, rfl⟩)
        · exact agreeAbove_singleton.mpr hkind
        · rw [List.nil_append, nodeAt?_singleton, hr]
      | some r =>
        rw [partnerAlong_of_some hkind hl hr, ih hlp]
        constructor
        · intro h
          rcases h with ⟨q, j, hq, hagree, hmissing⟩
          refine ⟨i :: q, j, concat_prefix_cons_iff.mpr (.inr ⟨q, rfl, hq⟩), ?_, ?_⟩
          · exact (agreeAbove_cons hl hr _).mpr ⟨hkind, hagree⟩
          · rwa [List.cons_append, nodeAt?_cons hr]
        · intro h
          rcases h with ⟨q, j, hbelow, hagree, hmissing⟩
          rcases concat_prefix_cons_iff.mp hbelow with ⟨rfl, rfl⟩ | ⟨q', rfl, hq⟩
          · rw [List.nil_append, nodeAt?_singleton, hr] at hmissing
            cases hmissing
          · rw [List.cons_append] at hagree hmissing
            rw [nodeAt?_cons hr] at hmissing
            exact ⟨q', j, hq, ((agreeAbove_cons hl hr _).mp hagree).2, hmissing⟩
    · rw [partnerAlong_of_ne hkind]
      constructor
      · intro h
        cases h
      · intro h
        rcases h with ⟨q, j, -, hagree, -⟩
        cases q with
        | nil => exact absurd hagree.kind_eq hkind
        | cons k q => exact absurd hagree.kind_eq hkind

/-- The walk stops at the first place on the way where the kinds differ. -/
theorem partnerAlong_eq_error_iff {left right target : Node} {p : Path}
    (hp : left.nodeAt? p = some target) (f : PartnerFault) :
    partnerAlong left right p = .error f ↔
      ∃ q i a b, q ++ [i] <+: p ∧ AgreeAbove left right q ∧ left.nodeAt? q = some a ∧
        right.nodeAt? q = some b ∧ a.kind ≠ b.kind ∧ f = .diverged a.kind b.kind := by
  induction p generalizing left right with
  | nil => simp [partnerAlong]
  | cons i p ih =>
    obtain ⟨l, hl, hlp⟩ := Option.bind_eq_some_iff.mp hp
    by_cases hkind : left.kind = right.kind
    · cases hr : right.childNode? i with
      | none =>
        rw [partnerAlong_of_none hkind hr]
        constructor
        · intro h
          cases h
        · intro h
          rcases h with ⟨q, j, a, b, hbelow, -, ha, hb, hne, -⟩
          rcases concat_prefix_cons_iff.mp hbelow with ⟨rfl, rfl⟩ | ⟨q', rfl, -⟩
          · rw [← Option.some.inj ha, ← Option.some.inj hb] at hne
            exact absurd hkind hne
          · rw [nodeAt?, hr] at hb
            cases hb
      | some r =>
        rw [partnerAlong_of_some hkind hl hr, ih hlp]
        constructor
        · intro h
          rcases h with ⟨q, j, a, b, hq, hagree, ha, hb, hne, rfl⟩
          refine ⟨i :: q, j, a, b, concat_prefix_cons_iff.mpr (.inr ⟨q, rfl, hq⟩), ?_, ?_, ?_,
            hne, rfl⟩
          · exact (agreeAbove_cons hl hr q).mpr ⟨hkind, hagree⟩
          · rwa [nodeAt?_cons hl]
          · rwa [nodeAt?_cons hr]
        · intro h
          rcases h with ⟨q, j, a, b, hbelow, hagree, ha, hb, hne, rfl⟩
          rcases concat_prefix_cons_iff.mp hbelow with ⟨rfl, rfl⟩ | ⟨q', rfl, hq⟩
          · rw [← Option.some.inj ha, ← Option.some.inj hb] at hne
            exact absurd hkind hne
          · rw [nodeAt?_cons hl] at ha
            rw [nodeAt?_cons hr] at hb
            exact ⟨q', j, a, b, hq, ((agreeAbove_cons hl hr q').mp hagree).2, ha, hb, hne, rfl⟩
    · rw [partnerAlong_of_ne hkind]
      constructor
      · intro h
        obtain rfl := Except.error.inj h
        exact ⟨[], i, left, right, concat_prefix_cons_iff.mpr (.inl ⟨rfl, rfl⟩),
          agreeAbove_nil left right, rfl, rfl, hkind, rfl⟩
      · intro h
        rcases h with ⟨q, j, a, b, -, hagree, ha, hb, -, rfl⟩
        cases q with
        | nil => rw [Option.some.inj ha, Option.some.inj hb]
        | cons k q => exact absurd hagree.kind_eq hkind

/-! ## The walk by offsets is the walk along the path -/

/-- Above its target, the walk does not take a node for it. -/
theorem not_same_of_nodeAt?_cons {n target : Node} {i : Nat} {p : Path}
    (hp : n.nodeAt? (i :: p) = some target) : ¬ n.Same target := by
  obtain ⟨c, hc, hct⟩ := Option.bind_eq_some_iff.mp hp
  have habove := mem_properAncestors_of_mem_childNodes (mem_childNodes_of_childNode? hc)
  exact not_same_of_mem_properAncestors
    (mem_properAncestors_trans habove (mem_ancestors_iff.mpr ⟨p, hct⟩))

/-- The walk by offsets goes along the path to its target. -/
theorem partnerFrom_eq_partnerAlong {left right target : Node} {p : Path}
    (hp : left.nodeAt? p = some target) (hwidth : target.width ≠ 0) :
    partnerFrom target left right = partnerAlong left right p := by
  induction p generalizing left right with
  | nil =>
    rw [Option.some.inj hp, partnerFrom, if_pos (Same.refl target), partnerAlong]
  | cons i p ih =>
    obtain ⟨l, hl, hlp⟩ := Option.bind_eq_some_iff.mp hp
    have hchild := childAt?_of_nodeAt? hl hlp hwidth
    rw [partnerFrom, if_neg (not_same_of_nodeAt?_cons hp)]
    by_cases hkind : left.kind = right.kind
    · rw [if_neg (fun hne => hne hkind)]
      split
      · rename_i hnone
        rw [hchild] at hnone
        cases hnone
      · rename_i htoken
        rw [hchild] at htoken
        cases htoken
      · rename_i j m hnode
        rw [hchild, Option.some.injEq, Prod.mk.injEq, Element.node.injEq] at hnode
        obtain ⟨rfl, rfl⟩ := hnode
        cases hr : right.childNode? i with
        | none => rw [partnerAlong_of_none hkind hr]
        | some r => rw [partnerAlong_of_some hkind hl hr]; exact ih hlp
    · rw [if_pos hkind, partnerAlong_of_ne hkind]

/-- A node that covers text lies below a node of its version if a node above it is the same as
that one. -/
theorem exists_path_of_same {leftRoot target a : Node}
    (hversion : target.version = leftRoot.version → target.root = leftRoot.root)
    (hwidth : target.width ≠ 0) (ha : a ∈ target.ancestors) (hsame : a.Same leftRoot) :
    ∃ p, leftRoot.nodeAt? p = some target := by
  obtain ⟨p, hp⟩ := mem_ancestors_iff.mp ha
  have hroot : a.root = leftRoot.root := by
    rw [← root_of_nodeAt? hp]
    apply hversion
    rw [version_of_nodeAt? hp, hsame.version_eq]
  have heq := eq_of_same hroot hsame (width_ne_zero_of_mem_ancestors ha hwidth)
  exact ⟨p, heq ▸ hp⟩

/-- A lookup below the left root is a walk along the path to the node. -/
theorem partner_eq_partnerAlong {leftRoot rightRoot target : Node} {p : Path}
    (hp : leftRoot.nodeAt? p = some target) (hwidth : target.width ≠ 0) :
    leftRoot.partner rightRoot target = partnerAlong leftRoot rightRoot p := by
  have hfound : ¬ (target.ancestors.all fun a => ¬ a.Same leftRoot) = true := by
    rw [List.all_eq_true]
    intro hall
    have hself := hall leftRoot (mem_ancestors_iff.mpr ⟨p, hp⟩)
    simp [Same.refl] at hself
  rw [partner, if_neg hwidth, if_neg hfound, partnerFrom_eq_partnerAlong hp hwidth]

/-- A lookup of a node at a path finds the right node at the path, if the kinds agree above. -/
theorem partner_eq_ok_some_iff {left right n m : Node} {p : Path} (hp : left.nodeAt? p = some n)
    (hwidth : n.width ≠ 0) :
    left.partner right n = .ok (some m) ↔ AgreeAbove left right p ∧ right.nodeAt? p = some m := by
  rw [partner_eq_partnerAlong hp hwidth, partnerAlong_eq_some_iff hp]

/-! ## The outcome of a lookup -/

/-- The walk by the offset of a target keeps to a path: above the end it takes no node for the
target, and it goes on to the child on the path. -/
def DescendsAlong (n target : Node) (p : Path) : Prop :=
  ∀ q i a, q ++ [i] <+: p → n.nodeAt? q = some a →
    ¬ a.Same target ∧
      ∃ c, n.nodeAt? (q ++ [i]) = some c ∧ a.childAt? target.start = some (i, .node c)

theorem descendsAlong_of_nodeAt? {n target : Node} {p : Path} (hp : n.nodeAt? p = some target)
    (hwidth : target.width ≠ 0) : DescendsAlong n target p := by
  intro q i a h ha
  rcases h with ⟨s, rfl⟩
  rw [List.append_assoc, List.singleton_append, nodeAt?_append, ha, Option.bind_some] at hp
  obtain ⟨c, hc, hcp⟩ := Option.bind_eq_some_iff.mp hp
  refine ⟨not_same_of_nodeAt?_cons hp, c, ?_, childAt?_of_nodeAt? hc hcp hwidth⟩
  rw [nodeAt?_concat, ha, Option.bind_some, hc]

/-- What a lookup answers, for every pair of roots and every node.  A version number names one
tree, so a node of the left version has the left root's root.

A node without text is refused, and so is a node that has no node above it that is the same as
the left root.  All other nodes lie below the left root at a path, and the walk keeps to that
path.  It stops at the first place above the end where the kinds differ; before that it is lost
where the right tree has no node; otherwise it arrives at the right node at the path.  It never
comes to a token. -/
theorem partner_outcome {leftRoot target : Node} (rightRoot : Node)
    (hversion : target.version = leftRoot.version → target.root = leftRoot.root) :
    (target.width = 0 → leftRoot.partner rightRoot target = .error .zeroWidth) ∧
    (target.width ≠ 0 → (∀ a ∈ target.ancestors, ¬ a.Same leftRoot) →
      leftRoot.partner rightRoot target = .error .foreignNode) ∧
    (target.width ≠ 0 → (∃ a ∈ target.ancestors, a.Same leftRoot) →
      ∃ p, leftRoot.nodeAt? p = some target ∧ DescendsAlong leftRoot target p ∧
        (∀ f, leftRoot.partner rightRoot target = .error f ↔
          ∃ q i a b, q ++ [i] <+: p ∧ AgreeAbove leftRoot rightRoot q ∧
            leftRoot.nodeAt? q = some a ∧ rightRoot.nodeAt? q = some b ∧
            a.kind ≠ b.kind ∧ f = .diverged a.kind b.kind) ∧
        (leftRoot.partner rightRoot target = .ok none ↔
          ∃ q i, q ++ [i] <+: p ∧ AgreeAbove leftRoot rightRoot (q ++ [i]) ∧
            rightRoot.nodeAt? (q ++ [i]) = none) ∧
        (∀ m, leftRoot.partner rightRoot target = .ok (some m) ↔
          AgreeAbove leftRoot rightRoot p ∧ rightRoot.nodeAt? p = some m)) ∧
    leftRoot.partner rightRoot target ≠ .error .reachedToken ∧
    PartnerFault.zeroWidth.message = "partner lookup of a zero-width node" ∧
    PartnerFault.foreignNode.message = "node does not belong to the left tree" ∧
    ∀ k l, (PartnerFault.diverged k l).message =
      "assertion `left == right` failed: trees diverge above an unaffected node\n  left: "
        ++ k.name ++ "\n right: " ++ l.name := by
  have hzero : target.width = 0 → leftRoot.partner rightRoot target = .error .zeroWidth := by
    intro hwidth
    rw [partner, if_pos hwidth]
  have hforeign : target.width ≠ 0 → (∀ a ∈ target.ancestors, ¬ a.Same leftRoot) →
      leftRoot.partner rightRoot target = .error .foreignNode := by
    intro hwidth hnone
    rw [partner, if_neg hwidth, if_pos]
    rw [List.all_eq_true]
    intro a ha
    exact decide_eq_true (hnone a ha)
  refine ⟨hzero, hforeign, ?_, ?_, rfl, rfl, fun k l => rfl⟩
  · intro hwidth h
    rcases h with ⟨a, ha, hsame⟩
    obtain ⟨p, hp⟩ := exists_path_of_same hversion hwidth ha hsame
    rw [partner_eq_partnerAlong hp hwidth]
    exact ⟨p, hp, descendsAlong_of_nodeAt? hp hwidth, partnerAlong_eq_error_iff hp,
      partnerAlong_eq_none_iff hp, partnerAlong_eq_some_iff hp⟩
  · intro hreached
    by_cases hwidth : target.width = 0
    · rw [hzero hwidth] at hreached
      cases hreached
    · by_cases hsame : ∃ a ∈ target.ancestors, a.Same leftRoot
      · obtain ⟨a, ha, hsame⟩ := hsame
        obtain ⟨p, hp⟩ := exists_path_of_same hversion hwidth ha hsame
        rw [partner_eq_partnerAlong hp hwidth] at hreached
        obtain ⟨_, _, _, _, _, _, _, _, _, hfault⟩ :=
          (partnerAlong_eq_error_iff hp _).mp hreached
        cases hfault
      · rw [hforeign hwidth fun a ha h => hsame ⟨a, ha, h⟩] at hreached
        cases hreached

/-- A lookup passes over a sibling without text and arrives below it, at a node of another kind. -/
theorem partner_outcome_behind_empty_sibling :
    let empty := Tree.node .emptyStatement []
    let name := Tree.token .identifier "a"
    let number := Tree.token .intLiteral "1"
    let left : Node :=
      ⟨0, .block, [empty, .node .expressionStatement [.node .identifierName [name]]], []⟩
    let right : Node :=
      ⟨1, .block, [empty, .node .expressionStatement [.node .literalExpression [number]]], []⟩
    let around : List Frame := [⟨.expressionStatement, [], []⟩, ⟨.block, [empty], []⟩]
    let target : Node := ⟨0, .identifierName, [name], around⟩
    (target.version = left.version → target.root = left.root) ∧
      left.partner right target = .ok (some ⟨1, .literalExpression, [number], around⟩) := by
  intro empty name number left right around target
  have hversion : target.version = left.version → target.root = left.root := fun _ => rfl
  refine ⟨hversion, ?_⟩
  obtain ⟨-, -, hfound, -⟩ := partner_outcome right hversion
  obtain ⟨p, hp, -, -, -, harrives⟩ := hfound (by decide) ⟨left, by decide, Same.refl left⟩
  have hpath : [1, 0] = p := path_of_nodeAt? hp
  subst hpath
  have hl : left.childNode? 1 = some _ := rfl
  have hr : right.childNode? 1 = some _ := rfl
  have hagree : AgreeAbove left right [1, 0] :=
    (agreeAbove_cons hl hr [0]).mpr ⟨rfl, agreeAbove_singleton.mpr rfl⟩
  exact (harrives _).mpr ⟨hagree, rfl⟩

end LiveEdit.Node
