import LiveEdit.Proofs.LeafSearch
import LiveEdit.Proofs.Partners

/-!
# The two lookups agree

`Node.leafAndPartner` looks for the token at an offset and gives up the partner without a word when
the kinds differ.  `Node.partner` looks for a given node and fails when the kinds differ above it.

* `value_leafAndPartnerFrom_below`: where the kinds agree, the walk to an offset passes through
  every pair of nodes at one path that holds the offset, and goes on below the pair as a walk of
  its own.
* `lookups_agree`: the partner that comes with a token is what a lookup of the node around the
  token finds, and a search may start at the roots or at any pair of partners around the offset.
-/

namespace LiveEdit.Node

/-- The token that a search finds lies inside the node around it. -/
theorem within_parent_of_search {n : Node} {offset : Nat} {p : Path} {t : Token}
    (hsearch : Search offset n p (some t)) :
    t.parent.start ≤ t.start ∧ t.stop ≤ t.parent.stop := by
  generalize hfound : some t = found at hsearch
  induction hsearch with
  | lost hchild => cases hfound
  | @leaf n i u hchild =>
    obtain rfl := Option.some.inj hfound
    obtain ⟨hstart, hstop⟩ := range_of_getElem? (getElem?_of_childAt? hchild)
    have hinside := Tree.widths_take_le n.children (i + 1)
    rw [parent_of_childAt? hchild, show t.start = _ from hstart, show t.stop = _ from hstop]
    rw [stop, width_eq_widths]
    omega
  | down hchild tail ih => exact ih hfound

/-- How deep a walk started does not change its answer. -/
theorem value_leafAndPartnerFrom_depth (left : Node) (offset : Nat) (right : Option Node)
    (depth depth' : Nat) :
    (leafAndPartnerFrom depth left offset right).value =
      (leafAndPartnerFrom depth' left offset right).value := by
  obtain ⟨p, found, hsearch⟩ := exists_search left offset
  cases found with
  | none => rw [value_of_search_none hsearch, value_of_search_none hsearch]
  | some t =>
    obtain ⟨m, hvalue, hleaf, hleft, hright⟩ := value_of_search_some hsearch depth right
    obtain ⟨m', hvalue', hleaf', hleft', hright'⟩ := value_of_search_some hsearch depth' right
    have hsame : m.right = m'.right := Option.ext fun r => (hright r).trans (hright' r).symm
    rw [hvalue, hvalue', Option.some.injEq, LeafMatch.mk.injEq]
    exact ⟨hleaf.trans hleaf'.symm, hleft.trans hleft'.symm, hsame⟩

/-- Where the kinds agree above a pair of nodes at one path, the walk to an offset inside the left
node answers what the walk below the pair answers. -/
theorem value_leafAndPartnerFrom_below {left right n m : Node} {p : Path} {offset : Nat}
    (hn : left.nodeAt? p = some n) (hm : right.nodeAt? p = some m)
    (hagree : AgreeAbove left right p) (hlow : n.start ≤ offset) (hhigh : offset < n.stop)
    (depth : Nat) :
    (leafAndPartnerFrom depth left offset (some right)).value =
      (leafAndPartnerFrom (depth + p.length) n offset (some m)).value := by
  induction p generalizing left right depth with
  | nil =>
    obtain rfl := Option.some.inj hn
    obtain rfl := Option.some.inj hm
    rfl
  | cons i p ih =>
    obtain ⟨l, hl, hln⟩ := Option.bind_eq_some_iff.mp hn
    obtain ⟨r, hr, hrm⟩ := Option.bind_eq_some_iff.mp hm
    obtain ⟨hkind, hrest⟩ := (agreeAbove_cons hl hr p).mp hagree
    have hwithin := within_of_nodeAt? hln
    have hchild : left.childAt? offset = some (i, .node l) :=
      childAt?_of_childNode? hl (by omega) (by omega)
    have hagreed : (left.agreeing (some right) depth).value = some right :=
      agreeing_value_eq_some_iff.mpr ⟨rfl, hkind⟩
    rw [leafAndPartnerFrom_of_node hchild, hagreed, Option.bind_some, hr]
    rw [List.length_cons, Nat.add_comm p.length, ← Nat.add_assoc]
    exact ih hln hrm hrest (depth + 1)

/-- At an offset inside a root there is a token, and the partner that comes with it is what a lookup
of the node around it finds, if that has the kind of the node.  The node covers text, because it
holds the token and the token holds the offset. -/
theorem exists_leafMatch {left : Node} (right : Node) {offset : Nat} (hlow : left.start ≤ offset)
    (hhigh : offset < left.stop) :
    ∃ m, (left.leafAndPartner offset right).value = some m ∧
      ∀ r, m.right = some r ↔
        left.partner right m.left = .ok (some r) ∧ r.kind = m.left.kind := by
  obtain ⟨p, found, hsearch⟩ := exists_search left offset
  obtain ⟨t, rfl, -, hstart, hstop⟩ := find?_leaves_of_search hsearch hlow hhigh
  obtain ⟨m, hvalue, -, hleft, hright⟩ := value_of_search_some hsearch 0 (some right)
  have hp : left.nodeAt? p = some m.left := by
    rw [hleft]
    exact nodeAt?_of_search hsearch
  have hwidth : m.left.width ≠ 0 := by
    have hwithin := within_parent_of_search hsearch
    rw [← hleft] at hwithin
    simp only [stop] at hwithin
    omega
  refine ⟨m, hvalue, ?_⟩
  intro r
  rw [hright r, partner_eq_ok_some_iff hp hwidth]
  constructor
  · intro h
    obtain ⟨s, hs, hagree, hr⟩ := h
    obtain rfl := Option.some.inj hs
    obtain ⟨habove, hend⟩ := agreeThrough_iff.mp hagree
    exact ⟨⟨habove, hr⟩, ((kindsAgree_iff hp hr).mp hend).symm⟩
  · intro h
    obtain ⟨⟨habove, hr⟩, hkind⟩ := h
    exact ⟨right, rfl, agreeThrough_iff.mpr ⟨habove, (kindsAgree_iff hp hr).mpr hkind.symm⟩, hr⟩

/-- Below a pair of partners that holds an offset, the search goes on as a search of its own. -/
theorem value_leafAndPartner_below {left right n n' : Node} {p : Path} {offset : Nat}
    (hn : left.nodeAt? p = some n) (hpartner : left.partner right n = .ok (some n'))
    (hlow : n.start ≤ offset) (hhigh : offset < n.stop) :
    (left.leafAndPartner offset right).value = (n.leafAndPartner offset n').value := by
  obtain ⟨hagree, hn'⟩ := (partner_eq_ok_some_iff hn (width_ne_zero_of_partner hpartner)).mp hpartner
  calc (left.leafAndPartner offset right).value
      = (leafAndPartnerFrom (0 + p.length) n offset (some n')).value :=
        value_leafAndPartnerFrom_below hn hn' hagree hlow hhigh 0
    _ = (n.leafAndPartner offset n').value := value_leafAndPartnerFrom_depth n offset (some n') _ 0

/-- The two lookups agree, for all pairs of roots and all offsets.

At an offset inside the left root there is a token, and the search answers with a partner of the
node around the token if and only if a lookup of that node finds it and it has the kind of the
node.  If a lookup of any node finds a partner, then at every offset inside the node the search
from the roots and the search from the pair answer the same token, the same node around it and the
same partner.  A version number names one tree, so a node of the left version has the left root's
root. -/
theorem lookups_agree (left right : Node) :
    (∀ offset, left.start ≤ offset → offset < left.stop →
      ∃ m, (left.leafAndPartner offset right).value = some m ∧
        ∀ r, m.right = some r ↔
          left.partner right m.left = .ok (some r) ∧ r.kind = m.left.kind) ∧
    ∀ n n', (n.version = left.version → n.root = left.root) →
      left.partner right n = .ok (some n') →
        ∀ offset, n.start ≤ offset → offset < n.stop →
          ∃ m, (left.leafAndPartner offset right).value = some m ∧
            (n.leafAndPartner offset n').value = some m := by
  constructor
  · intro offset hlow hhigh
    exact exists_leafMatch right hlow hhigh
  · intro n n' hversion hpartner offset hlow hhigh
    obtain ⟨p, hn⟩ := exists_path_of_partner hversion hpartner
    obtain ⟨m, hm, -⟩ := exists_leafMatch n' hlow hhigh
    exact ⟨m, (value_leafAndPartner_below hn hpartner hlow hhigh).trans hm, hm⟩

/-- A name behind an empty statement has become longer.  The search from the roots and the search
from the two statements find the same, and the partner is the longer name. -/
theorem lookups_agree_in_statement :
    let empty := Tree.node .emptyStatement []
    let letter := Tree.token .identifier "a"
    let word := Tree.token .identifier "abc"
    let value (t : Tree) := Tree.node .identifierName [t]
    let root (version : Nat) (t : Tree) : Node :=
      ⟨version, .block, [empty, .node .expressionStatement [value t]], []⟩
    let statement (version : Nat) (t : Tree) : Node :=
      ⟨version, .expressionStatement, [value t], [⟨.block, [empty], []⟩]⟩
    let name (version : Nat) (t : Tree) : Node :=
      ⟨version, .identifierName, [t], [⟨.expressionStatement, [], []⟩, ⟨.block, [empty], []⟩]⟩
    (root 0 letter).start ≤ 0 ∧ 0 < (root 0 letter).stop ∧
      (root 0 letter).partner (root 1 word) (statement 0 letter) =
        .ok (some (statement 1 word)) ∧
      ∃ m, ((root 0 letter).leafAndPartner 0 (root 1 word)).value = some m ∧
        ((statement 0 letter).leafAndPartner 0 (statement 1 word)).value = some m ∧
        m.left = name 0 letter ∧ m.right = some (name 1 word) ∧
        (root 0 letter).partner (root 1 word) m.left = .ok (some (name 1 word)) := by
  intro empty letter word value root statement name
  have hpair : (root 0 letter).partner (root 1 word) (statement 0 letter) =
      .ok (some (statement 1 word)) := by decide +kernel
  obtain ⟨hmatch, hbelow⟩ := lookups_agree (root 0 letter) (root 1 word)
  obtain ⟨m, hm, hright⟩ := hmatch 0 (by decide) (by decide)
  obtain ⟨m', hm', hinner⟩ :=
    hbelow (statement 0 letter) (statement 1 word) (fun _ => rfl) hpair 0 (by decide) (by decide)
  obtain rfl := Option.some.inj (hm.symm.trans hm')
  have hfound : ((root 0 letter).leafAndPartner 0 (root 1 word)).value =
      some ⟨⟨name 0 letter, 0, .identifier, "a"⟩, name 0 letter, some (name 1 word)⟩ := by
    decide +kernel
  obtain rfl := Option.some.inj (hm.symm.trans hfound)
  exact ⟨by decide, by decide, hpair, _, hm, hinner, rfl, rfl, ((hright _).mp rfl).1⟩

end LiveEdit.Node
