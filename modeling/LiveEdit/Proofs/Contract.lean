import LiveEdit.Proofs.Partners

/-!
# The contract of a lookup

A caller of `Node.partner` promises that the path to the node exists in the right tree with the
same kinds all along, the node included.  `HonoursContract` says what the promise is worth: if it
is kept, the lookup finds a node of the same kind, and if it is broken, the lookup fails.

The walk down checks the kinds above the node only, and it takes a missing node for an answer.

* `DivergesAbove`, `BreaksOff` and `EndsInOtherKind` are the ways in which the promise can be
  broken, told apart by the first step at which it is.
* `honoursContract_iff`: the contract is honoured if the promise is kept or the lookup fails.
* `partner_under_contract` gives the answer of the lookup in each case.
* `contract_ignored_at_the_end`: a new kind at the end of the path and a missing node are answered,
  not refused.
-/

namespace LiveEdit.Node

/-! ## Broken promises -/

/-- The first difference along a path is a difference of kinds above its end. -/
def DivergesAbove (left right : Node) (p : Path) : Prop :=
  ∃ q i a b, q ++ [i] <+: p ∧ AgreeAbove left right q ∧ left.nodeAt? q = some a ∧
    right.nodeAt? q = some b ∧ a.kind ≠ b.kind

/-- The first difference along a path is a step at which the right tree has no node: it has no
child there, or a token. -/
def BreaksOff (left right : Node) (p : Path) : Prop :=
  ∃ q i, q ++ [i] <+: p ∧ AgreeAbove left right (q ++ [i]) ∧ right.nodeAt? (q ++ [i]) = none

/-- The first difference along a path is a difference of kinds at its end. -/
def EndsInOtherKind (left right : Node) (p : Path) : Prop :=
  AgreeAbove left right p ∧
    ∃ a b, left.nodeAt? p = some a ∧ right.nodeAt? p = some b ∧ a.kind ≠ b.kind

/-- The contract of one lookup.  The promise is that the path to the target exists on the right
with the same kinds at every step. -/
structure HonoursContract (left right target : Node) : Prop where
  /-- A kept promise leads to the right node at the path, which has the kind of the target. -/
  kept : ∀ p, left.nodeAt? p = some target → AgreeThrough left right p →
    ∃ m, left.partner right target = .ok (some m) ∧ right.nodeAt? p = some m ∧
      m.kind = target.kind
  /-- A broken promise is an error. -/
  broken : (¬ ∃ p, left.nodeAt? p = some target ∧ AgreeThrough left right p) →
    ∃ f, left.partner right target = .error f

/-! ## The answer in each case -/

section

variable {left right target : Node} {p : Path}

theorem agreeThrough_iff_partner (hp : left.nodeAt? p = some target) (hwidth : target.width ≠ 0) :
    AgreeThrough left right p ↔
      ∃ m, left.partner right target = .ok (some m) ∧ right.nodeAt? p = some m ∧
        m.kind = target.kind := by
  rw [agreeThrough_iff]
  constructor
  · intro h
    obtain ⟨habove, a, m, ha, hm, hkind⟩ := h
    obtain rfl := Option.some.inj (hp.symm.trans ha)
    exact ⟨m, (partner_eq_ok_some_iff hp hwidth).mpr ⟨habove, hm⟩, hm, hkind.symm⟩
  · intro h
    obtain ⟨m, hpartner, hm, hkind⟩ := h
    exact ⟨((partner_eq_ok_some_iff hp hwidth).mp hpartner).1,
      (kindsAgree_iff hp hm).mpr hkind.symm⟩

theorem divergesAbove_iff_partner (hp : left.nodeAt? p = some target) (hwidth : target.width ≠ 0) :
    DivergesAbove left right p ↔ ∃ f, left.partner right target = .error f := by
  rw [partner_eq_partnerAlong hp hwidth]
  constructor
  · intro h
    obtain ⟨q, i, a, b, hq, habove, ha, hb, hne⟩ := h
    exact ⟨.diverged a.kind b.kind,
      (partnerAlong_eq_error_iff hp _).mpr ⟨q, i, a, b, hq, habove, ha, hb, hne, rfl⟩⟩
  · intro h
    obtain ⟨f, hf⟩ := h
    obtain ⟨q, i, a, b, hq, habove, ha, hb, hne, -⟩ := (partnerAlong_eq_error_iff hp f).mp hf
    exact ⟨q, i, a, b, hq, habove, ha, hb, hne⟩

theorem breaksOff_iff_partner (hp : left.nodeAt? p = some target) (hwidth : target.width ≠ 0) :
    BreaksOff left right p ↔ left.partner right target = .ok none := by
  rw [partner_eq_partnerAlong hp hwidth, partnerAlong_eq_none_iff hp, BreaksOff]

theorem endsInOtherKind_iff_partner (hp : left.nodeAt? p = some target)
    (hwidth : target.width ≠ 0) :
    EndsInOtherKind left right p ↔
      ∃ m, left.partner right target = .ok (some m) ∧ m.kind ≠ target.kind := by
  constructor
  · intro h
    obtain ⟨habove, a, m, ha, hm, hne⟩ := h
    obtain rfl := Option.some.inj (hp.symm.trans ha)
    exact ⟨m, (partner_eq_ok_some_iff hp hwidth).mpr ⟨habove, hm⟩, hne.symm⟩
  · intro h
    obtain ⟨m, hpartner, hne⟩ := h
    obtain ⟨habove, hm⟩ := (partner_eq_ok_some_iff hp hwidth).mp hpartner
    exact ⟨habove, target, m, hp, hm, hne.symm⟩

/-- The contract is honoured if the promise is kept or the lookup fails. -/
theorem honoursContract_iff (hp : left.nodeAt? p = some target) (hwidth : target.width ≠ 0) :
    HonoursContract left right target ↔
      AgreeThrough left right p ∨ ∃ f, left.partner right target = .error f := by
  have hpath : ∀ q, left.nodeAt? q = some target → q = p := fun q hq => nodeAt?_injective hq hp
  constructor
  · intro h
    by_cases hagree : AgreeThrough left right p
    · exact .inl hagree
    · right
      apply h.broken
      intro hkept
      obtain ⟨q, hq, hagree'⟩ := hkept
      rw [hpath q hq] at hagree'
      exact hagree hagree'
  · intro h
    refine ⟨?_, ?_⟩
    · intro q hq hagree
      exact (agreeThrough_iff_partner hq hwidth).mp hagree
    · intro hbroken
      exact h.resolve_left fun hagree => hbroken ⟨p, hp, hagree⟩

/-- A node of the left tree that does not lie below the left root is refused. -/
theorem partner_of_not_mem_ancestors (right : Node) (hroot : target.root = left.root)
    (hwidth : target.width ≠ 0) (habove : left ∉ target.ancestors) :
    left.partner right target = .error .foreignNode := by
  rw [partner, if_neg hwidth, if_pos]
  rw [List.all_eq_true]
  intro a ha
  refine decide_eq_true ?_
  intro hsame
  have heq := eq_of_same ((root_of_mem_ancestors ha).trans hroot) hsame
    (width_ne_zero_of_mem_ancestors ha hwidth)
  exact habove (heq ▸ ha)

end

/-- What a lookup answers to a promise that is kept or broken, for every node of the left tree that
covers text.

A node that does not lie below the left root is refused.  For all others the first difference along
the path decides.  Without a difference the lookup finds a node of the same kind.  It fails if the
kinds differ above the end, and only then.  It answers that there is no partner if the right tree
has no node at some step, and it answers with a node of another kind if the kinds differ at the
end: in these two cases the contract is not honoured. -/
theorem partner_under_contract {left target : Node} (right : Node)
    (hroot : target.root = left.root) (hwidth : target.width ≠ 0) :
    (left ∉ target.ancestors →
      left.partner right target = .error .foreignNode ∧ HonoursContract left right target) ∧
    ∀ p, left.nodeAt? p = some target →
      (AgreeThrough left right p ↔
        ∃ m, left.partner right target = .ok (some m) ∧ right.nodeAt? p = some m ∧
          m.kind = target.kind) ∧
      (DivergesAbove left right p ↔ ∃ f, left.partner right target = .error f) ∧
      (BreaksOff left right p ↔ left.partner right target = .ok none) ∧
      (EndsInOtherKind left right p ↔
        ∃ m, left.partner right target = .ok (some m) ∧ m.kind ≠ target.kind) ∧
      (HonoursContract left right target ↔
        AgreeThrough left right p ∨ DivergesAbove left right p) := by
  constructor
  · intro habove
    have herror := partner_of_not_mem_ancestors right hroot hwidth habove
    refine ⟨herror, ?_, fun _ => ⟨.foreignNode, herror⟩⟩
    intro p hp
    exact absurd (mem_ancestors_iff.mpr ⟨p, hp⟩) habove
  · intro p hp
    have hdiverges : DivergesAbove left right p ↔ ∃ f, left.partner right target = .error f :=
      divergesAbove_iff_partner hp hwidth
    refine ⟨agreeThrough_iff_partner hp hwidth, hdiverges, breaksOff_iff_partner hp hwidth,
      endsInOtherKind_iff_partner hp hwidth, ?_⟩
    rw [honoursContract_iff hp hwidth, hdiverges]

/-- A statement of another kind around a name is refused, as the contract says. -/
theorem partner_under_contract_of_new_statement :
    let name := Tree.token .identifier "a"
    let around (version : Nat) (statement : Kind) : Node :=
      ⟨version, .block, [.node statement [.node .identifierName [name]]], []⟩
    let left := around 0 .returnStatement
    let right := around 1 .expressionStatement
    let target : Node :=
      ⟨0, .identifierName, [name], [⟨.returnStatement, [], []⟩, ⟨.block, [], []⟩]⟩
    target.root = left.root ∧ target.width ≠ 0 ∧ left.nodeAt? [0, 0] = some target ∧
      DivergesAbove left right [0, 0] ∧ HonoursContract left right target := by
  intro name around left right target
  have hroot : target.root = left.root := rfl
  have hwidth : target.width ≠ 0 := by decide
  have hp : left.nodeAt? [0, 0] = some target := rfl
  obtain ⟨-, hbelow⟩ := partner_under_contract right hroot hwidth
  obtain ⟨-, hdiverges, -, -, hhonours⟩ := hbelow [0, 0] hp
  have herror : left.partner right target =
      .error (.diverged .returnStatement .expressionStatement) := by decide +kernel
  have habove := hdiverges.mpr ⟨_, herror⟩
  exact ⟨hroot, hwidth, hp, habove, hhonours.mpr (.inr habove)⟩

/-- Where the name in a block was, there is a number in one right tree and nothing in the other.
The promise is broken both times, and the lookup does not fail. -/
theorem contract_ignored_at_the_end :
    let name := Tree.token .identifier "a"
    let left : Node := ⟨0, .block, [.node .identifierName [name]], []⟩
    let right : Node := ⟨1, .block, [.node .literalExpression [.token .intLiteral "1"]], []⟩
    let bare : Node := ⟨2, .block, [], []⟩
    let target : Node := ⟨0, .identifierName, [name], [⟨.block, [], []⟩]⟩
    target.root = left.root ∧ target.width ≠ 0 ∧ left.nodeAt? [0] = some target ∧
      ¬ HonoursContract left right target ∧ ¬ HonoursContract left bare target := by
  intro name left right bare target
  have hwidth : target.width ≠ 0 := by decide
  have hp : left.nodeAt? [0] = some target := rfl
  refine ⟨rfl, hwidth, hp, ?_, ?_⟩
  · rw [honoursContract_iff hp hwidth]
    have hpartner : left.partner right target =
        .ok (some ⟨1, .literalExpression, [.token .intLiteral "1"], [⟨.block, [], []⟩]⟩) := by
      decide +kernel
    rw [agreeThrough_iff_partner hp hwidth, hpartner]
    simp [right, target]
  · rw [honoursContract_iff hp hwidth]
    have hpartner : left.partner bare target = .ok none := by decide +kernel
    rw [agreeThrough_iff_partner hp hwidth, hpartner]
    simp

end LiveEdit.Node
