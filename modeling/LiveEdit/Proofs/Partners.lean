import LiveEdit.Proofs.Lockstep
import LiveEdit.Proofs.SourceOrder

/-!
# Partners over several versions

A lookup finds its way by the offsets of the left tree, but what it finds does not depend on them:
two nodes are partners if they stand at one path and the kinds of the two trees agree above it.

* `partner_eq_ok_some_iff_isPartner`: a lookup finds what the relation `IsPartner` says.
* `IsPartner.symm` and `IsPartner.trans`: the relation can be turned round and composed, because
  the kinds agree both ways and along a chain of trees.
* `IsPartner.mem_ancestors_iff` and `IsPartner.comesBefore_iff`: partners of two nodes stand to
  each other as the two nodes do.
* `partners_over_versions` draws the conclusions for lookups in a chain of versions.
-/

namespace LiveEdit.Node

/-! ## Kinds in several trees -/

theorem KindsAgree.symm {left right : Node} {p : Path} (h : KindsAgree left right p) :
    KindsAgree right left p := by
  obtain ⟨a, b, ha, hb, hkind⟩ := h
  exact ⟨b, a, hb, ha, hkind.symm⟩

theorem KindsAgree.trans {first second third : Node} {p : Path}
    (h : KindsAgree first second p) (h' : KindsAgree second third p) :
    KindsAgree first third p := by
  obtain ⟨a, b, ha, hb, hab⟩ := h
  obtain ⟨b', c, hb', hc, hbc⟩ := h'
  rw [hb, Option.some.injEq] at hb'
  subst hb'
  exact ⟨a, c, ha, hc, hab.trans hbc⟩

theorem AgreeAbove.symm {left right : Node} {p : Path} (h : AgreeAbove left right p) :
    AgreeAbove right left p := by
  intro q i hq
  exact (h q i hq).symm

theorem AgreeAbove.trans {first second third : Node} {p : Path}
    (h : AgreeAbove first second p) (h' : AgreeAbove second third p) :
    AgreeAbove first third p := by
  intro q i hq
  exact (h q i hq).trans (h' q i hq)

/-- Below a common start, the earlier of two paths leads to the node that comes first. -/
theorem comesBefore_iff_of_nodeAt? {n a b : Node} {p q : Path} (ha : n.nodeAt? p = some a)
    (hb : n.nodeAt? q = some b) : ComesBefore n a b ↔ p.Before q := by
  rw [comesBefore_iff (mem_preorder_iff.mpr ⟨p, ha⟩) (mem_preorder_iff.mpr ⟨q, hb⟩),
    path_of_nodeAt? ha, path_of_nodeAt? hb, Path.append_before_append_iff]

/-! ## Lookups and partners -/

/-- A lookup answers for nodes that cover text only. -/
theorem width_ne_zero_of_partner {left right n : Node} {answer : Option Node}
    (h : left.partner right n = .ok answer) : n.width ≠ 0 := by
  intro hwidth
  rw [partner, if_pos hwidth] at h
  cases h

/-- A lookup answers for nodes below the left root only.  A version number names one tree. -/
theorem exists_path_of_partner {left right n : Node} {answer : Option Node}
    (hversion : n.version = left.version → n.root = left.root)
    (h : left.partner right n = .ok answer) : ∃ p, left.nodeAt? p = some n := by
  have hwidth := width_ne_zero_of_partner h
  rw [partner, if_neg hwidth] at h
  split at h
  · cases h
  · rename_i hfound
    simp only [List.all_eq_true, decide_eq_true_eq, not_forall, not_not, exists_prop] at hfound
    obtain ⟨a, ha, hsame⟩ := hfound
    exact exists_path_of_same hversion hwidth ha hsame

/-- Two nodes stand at one path below their roots, and the kinds agree above them. -/
def IsPartner (left right n m : Node) : Prop :=
  ∃ p, left.nodeAt? p = some n ∧ right.nodeAt? p = some m ∧ AgreeAbove left right p

/-- A lookup finds the partner of a node. -/
theorem partner_eq_ok_some_iff_isPartner {left right n m : Node} (hn : n ∈ left.preorder)
    (hwidth : n.width ≠ 0) :
    left.partner right n = .ok (some m) ↔ IsPartner left right n m := by
  constructor
  · intro h
    obtain ⟨p, hp⟩ := mem_preorder_iff.mp hn
    obtain ⟨hagree, hm⟩ := (partner_eq_ok_some_iff hp hwidth).mp h
    exact ⟨p, hp, hm, hagree⟩
  · intro h
    rcases h with ⟨p, hp, hm, hagree⟩
    exact (partner_eq_ok_some_iff hp hwidth).mpr ⟨hagree, hm⟩

theorem isPartner_of_partner {left right n m : Node} (hn : n ∈ left.preorder)
    (h : left.partner right n = .ok (some m)) : IsPartner left right n m :=
  (partner_eq_ok_some_iff_isPartner hn (width_ne_zero_of_partner h)).mp h

theorem IsPartner.mem_preorder {left right n m : Node} (h : IsPartner left right n m) :
    m ∈ right.preorder := by
  obtain ⟨p, -, hm, -⟩ := h
  exact mem_preorder_iff.mpr ⟨p, hm⟩

theorem IsPartner.symm {left right n m : Node} (h : IsPartner left right n m) :
    IsPartner right left m n := by
  obtain ⟨p, hn, hm, hagree⟩ := h
  exact ⟨p, hm, hn, hagree.symm⟩

theorem IsPartner.trans {first second third n m k : Node} (h : IsPartner first second n m)
    (h' : IsPartner second third m k) : IsPartner first third n k := by
  obtain ⟨p, hn, hm, hagree⟩ := h
  obtain ⟨q, hm', hk, hagree'⟩ := h'
  obtain rfl := nodeAt?_injective hm hm'
  exact ⟨p, hn, hk, hagree.trans hagree'⟩

/-- Different nodes have their partners at different places. -/
theorem IsPartner.eq_of_path_eq {left right n n' m m' : Node} (h : IsPartner left right n m)
    (h' : IsPartner left right n' m') (hpath : m.path = m'.path) : n = n' := by
  obtain ⟨p, hn, hm, -⟩ := h
  obtain ⟨q, hn', hm', -⟩ := h'
  rw [path_of_nodeAt? hm, path_of_nodeAt? hm'] at hpath
  obtain rfl := List.append_cancel_left hpath
  exact Option.some.inj (hn.symm.trans hn')

/-- Partners are nested as the nodes are. -/
theorem IsPartner.mem_ancestors_iff {left right n n' m m' : Node} (h : IsPartner left right n m)
    (h' : IsPartner left right n' m') : n ∈ n'.ancestors ↔ m ∈ m'.ancestors := by
  obtain ⟨p, hn, hm, -⟩ := h
  obtain ⟨q, hn', hm', -⟩ := h'
  rw [mem_ancestors_iff_of_nodeAt? hn hn', mem_ancestors_iff_of_nodeAt? hm hm']

/-- Partners come in the order of the nodes. -/
theorem IsPartner.comesBefore_iff {left right n n' m m' : Node} (h : IsPartner left right n m)
    (h' : IsPartner left right n' m') : ComesBefore left n n' ↔ ComesBefore right m m' := by
  obtain ⟨p, hn, hm, -⟩ := h
  obtain ⟨q, hn', hm', -⟩ := h'
  rw [comesBefore_iff_of_nodeAt? hn hn', comesBefore_iff_of_nodeAt? hm hm']

/-! ## A chain of versions -/

/-- What lookups answer over three versions, for all roots and all nodes.

If a lookup finds a node that covers text, then the lookup of that node in the other direction
leads back, and a lookup of it in a third version finds what the direct lookup finds there; none of
these lookups fails.  Lookups of two nodes find one place only for one node, and what they find is
nested and ordered as the two nodes are. -/
theorem partners_over_versions (first second third : Node) :
    (∀ n ∈ first.preorder, ∀ m, first.partner second n = .ok (some m) → m.width ≠ 0 →
      second.partner first m = .ok (some n) ∧
        ∀ k, second.partner third m = .ok (some k) → first.partner third n = .ok (some k)) ∧
    ∀ n ∈ first.preorder, ∀ n' ∈ first.preorder, ∀ m m',
      first.partner second n = .ok (some m) → first.partner second n' = .ok (some m') →
        (m.path = m'.path → n = n') ∧ (n ∈ n'.ancestors ↔ m ∈ m'.ancestors) ∧
          (ComesBefore first n n' ↔ ComesBefore second m m') := by
  constructor
  · intro n hn m hnm hwidth
    have hpair := isPartner_of_partner hn hnm
    refine ⟨(partner_eq_ok_some_iff_isPartner hpair.mem_preorder hwidth).mpr hpair.symm, ?_⟩
    intro k hmk
    have hnext := isPartner_of_partner hpair.mem_preorder hmk
    exact (partner_eq_ok_some_iff_isPartner hn (width_ne_zero_of_partner hnm)).mpr
      (hpair.trans hnext)
  · intro n hn n' hn' m m' hnm hnm'
    have hpair := isPartner_of_partner hn hnm
    have hpair' := isPartner_of_partner hn' hnm'
    exact ⟨hpair.eq_of_path_eq hpair', hpair.mem_ancestors_iff hpair',
      hpair.comesBefore_iff hpair'⟩

/-- A name behind an empty statement becomes a number and then a longer name.  The lookups lead
from the name over the number to the longer name, and back. -/
theorem partners_over_versions_of_rewritten_name :
    let empty := Tree.node .emptyStatement []
    let around (version : Nat) (value : Tree) : Node :=
      ⟨version, .block, [empty, .node .expressionStatement [value]], []⟩
    let below : List Frame := [⟨.block, [empty], []⟩]
    let letter := Tree.token .identifier "a"
    let number := Tree.token .intLiteral "10"
    let word := Tree.token .identifier "abc"
    let first := around 0 (.node .identifierName [letter])
    let second := around 1 (.node .literalExpression [number])
    let third := around 2 (.node .identifierName [word])
    let statement : Node := ⟨0, .expressionStatement, [.node .identifierName [letter]], below⟩
    let statement' : Node := ⟨1, .expressionStatement, [.node .literalExpression [number]], below⟩
    let n : Node := ⟨0, .identifierName, [letter], ⟨.expressionStatement, [], []⟩ :: below⟩
    let m : Node := ⟨1, .literalExpression, [number], ⟨.expressionStatement, [], []⟩ :: below⟩
    let k : Node := ⟨2, .identifierName, [word], ⟨.expressionStatement, [], []⟩ :: below⟩
    first.partner second n = .ok (some m) ∧ second.partner third m = .ok (some k) ∧
      second.partner first m = .ok (some n) ∧ first.partner third n = .ok (some k) ∧
      (statement ∈ n.ancestors ↔ statement' ∈ m.ancestors) ∧
      (ComesBefore first statement n ↔ ComesBefore second statement' m) := by
  intro empty around below letter number word first second third statement statement' n m k
  have hn : n ∈ first.preorder := by decide +kernel
  have hstatement : statement ∈ first.preorder := by decide +kernel
  have hnm : first.partner second n = .ok (some m) := by decide +kernel
  have hmk : second.partner third m = .ok (some k) := by decide +kernel
  have hpair : first.partner second statement = .ok (some statement') := by decide +kernel
  obtain ⟨hchain, horder⟩ := partners_over_versions first second third
  obtain ⟨hback, hacross⟩ := hchain n hn m hnm (by decide)
  obtain ⟨-, hnested, hordered⟩ := horder statement hstatement n hn statement' m hpair hnm
  exact ⟨hnm, hmk, hback, hacross k hmk, hnested, hordered⟩

end LiveEdit.Node
