import LiveEdit.Proofs.Edit

/-!
# Isolation of closures

A closure runs as a machine of its own, so what is written inside a closure does not touch the
machine around it.  `Tree.replaceAll` edits several places of a tree.

* `agreeOutside_of_replaceAll`: edits at places apart from each other leave the trees agreeing
  outside these places.
* `not_prefix_of_mem_suspensions`: nothing at or below a closure suspends the machine around it.
* `closures_isolated`: any closures can be exchanged for any others.
-/

namespace LiveEdit

namespace Tree

/-- The tree after several edits, made one after the other. -/
def replaceAll (t : Tree) (edits : List (Path × Tree)) : Tree :=
  edits.foldl (fun t e => t.replaceAt e.1 e.2) t

/-- A lambda, an anonymous method or a local function. -/
def isClosure : Tree → Bool
  | token .. => false
  | node k _ => k.isLambda || k == .localFunctionStatement

theorem kind_of_isClosure {t : Tree} (hclosure : t.isClosure = true) :
    (t.kind.isLambda || t.kind == .localFunctionStatement) = true := by
  cases t with
  | token k s => cases hclosure
  | node k cs => exact hclosure

theorem exists_node_of_isClosure {t : Tree} (hclosure : t.isClosure = true) :
    ∃ k cs, t = node k cs := by
  cases t with
  | token k s => cases hclosure
  | node k cs => exact ⟨k, cs, rfl⟩

end Tree

namespace Node

/-! ## Edits of several subtrees -/

theorem AgreeOutside.trans {hidden hidden₁ hidden₂ : Path → Prop} {a b c : Node}
    (hab : AgreeOutside hidden₁ a b) (hbc : AgreeOutside hidden₂ b c)
    (h₁ : ∀ p, hidden₁ p → hidden p) (h₂ : ∀ p, hidden₂ p → hidden p) :
    AgreeOutside hidden a c := by
  intro p hp
  exact (hab p fun h => hp (h₁ p h)).trans (hbc p fun h => hp (h₂ p h))

/-- After edits at places apart from each other, the trees agree outside these places, and each
place holds a node of its new kind.  The later edits are edits of the tree after the first one.  They
stand apart from the first place, and so keep the kind of the node there. -/
theorem agreeOutside_of_replaceAll {edits : List (Path × Tree)} {t : Tree}
    {version version' : Nat} {left right : Node} (hleft : t.plant? version = some left)
    (hplaces : ∀ e ∈ edits, ∃ c, left.nodeAt? e.1 = some c)
    (hnodes : ∀ e ∈ edits, ∃ k cs, e.2 = .node k cs)
    (hapart : edits.Pairwise fun e f => ¬ e.1 <+: f.1 ∧ ¬ f.1 <+: e.1)
    (hright : (t.replaceAll edits).plant? version' = some right) :
    AgreeOutside (fun p => ∃ e ∈ edits, e.1 <+: p) left right ∧
      ∀ e ∈ edits, ∃ c, right.nodeAt? e.1 = some c ∧ c.kind = e.2.kind := by
  induction edits generalizing t version left with
  | nil =>
    refine ⟨?_, by simp⟩
    intro p _
    apply map_outline_nodeAt?_congr
    rw [tree_of_plant? hleft, tree_of_plant? hright]
    rfl
  | cons e edits ih =>
    obtain ⟨q, s⟩ := e
    obtain ⟨hfirst, hrest⟩ := List.pairwise_cons.mp hapart
    obtain ⟨c, hc⟩ := hplaces (q, s) List.mem_cons_self
    obtain ⟨k, cs, rfl⟩ := hnodes (q, s) List.mem_cons_self
    obtain ⟨j, ds, hmid⟩ := Tree.exists_replaceAt_eq left.kind left.children q k cs
    have hplanted : (t.replaceAt q (.node k cs)).plant? 0 = some ⟨0, j, ds, []⟩ := by
      rw [← tree_of_plant? hleft, tree, hmid]
      rfl
    have htree : (⟨0, j, ds, []⟩ : Node).tree = left.tree.replaceAt q (.node k cs) := hmid.symm
    have hagree := agreeOutside_of_replaceAt hc htree
    obtain ⟨d, hd, hdtree⟩ := exists_nodeAt?_of_replaceAt hc htree
    obtain ⟨hothers, hheld⟩ := ih hplanted
      (fun f hf => (hplaces f (List.mem_cons_of_mem _ hf)).elim fun _ hx =>
        hagree.exists_right (hfirst f hf).1 hx)
      (fun f hf => hnodes f (List.mem_cons_of_mem _ hf)) hrest hright
    refine ⟨?_, ?_⟩
    · apply hagree.trans hothers
      · intro p hp
        exact ⟨(q, .node k cs), List.mem_cons_self, hp⟩
      · intro p hp
        obtain ⟨f, hf, hfp⟩ := hp
        exact ⟨f, List.mem_cons_of_mem _ hf, hfp⟩
    · intro f hf
      rcases List.mem_cons.mp hf with rfl | hf
      · have hvisible : ¬ ∃ f ∈ edits, f.1 <+: q := by
          rintro ⟨f, hf, hfq⟩
          exact (hfirst f hf).2 hfq
        obtain ⟨m, hm⟩ := hothers.exists_right hvisible hd
        refine ⟨m, hm, ?_⟩
        rw [← kind_eq_of_outline_eq (hothers.outline_eq hvisible hd hm)]
        exact (Tree.node.inj hdtree).1
      · exact hheld f hf

/-! ## Nothing in a closure suspends the machine around it -/

/-- A closure does not suspend. -/
theorem suspension?_of_isClosure {n : Node} (hclosure : n.isClosure = true) :
    n.suspension? = none := by
  have hkind : n.kind = .simpleLambdaExpression ∨ n.kind = .parenthesizedLambdaExpression ∨
      n.kind = .anonymousMethodExpression ∨ n.kind = .localFunctionStatement := by
    rw [isClosure] at hclosure
    revert hclosure
    cases n.kind <;> decide
  rcases hkind with hkind | hkind | hkind | hkind <;> simp [suspension?, hkind]

/-- Nothing at or below a closure suspends the machine around the closure. -/
theorem not_prefix_of_mem_suspensions {n c : Node} (hclosure : c.isClosure = true)
    (hbelow : n ∈ c.ancestors) {s : Path × SuspensionKind} (hs : s ∈ n.suspensions) :
    ¬ c.path <+: s.1 := by
  intro hpath
  obtain ⟨m, hm, hsuspends⟩ := List.mem_filterMap.mp hs
  obtain ⟨k, hk, rfl⟩ := Option.map_eq_some_iff.mp hsuspends
  obtain ⟨hnm, hopen⟩ := mem_ownCode_iff.mp hm
  have hroot : c.root = m.root := by
    rw [← root_of_mem_ancestors hbelow, root_of_mem_ancestors hnm]
  have hcm : c ∈ m.ancestors := mem_ancestors_iff_path.mpr ⟨hroot, hpath⟩
  by_cases hsame : c = m
  · rw [← hsame, suspension?_of_isClosure hclosure] at hk
    cases hk
  · have hentered := hopen c (mem_properAncestors_iff.mpr ⟨hcm, hsame⟩) hbelow
    rw [hclosure] at hentered
    cases hentered

/-- If closures at and below a node stand at the hidden places, no suspension is hidden. -/
theorem filter_suspensions_eq_self {root n : Node} {edits : List (Path × Tree)}
    (hroot : root.frames = [])
    (hclosures : ∀ e ∈ edits, ∃ c, root.nodeAt? e.1 = some c ∧ c.isClosure = true ∧
      n ∈ c.ancestors) :
    (n.suspensions.filter fun s => ¬ ∃ e ∈ edits, e.1 <+: s.1) = n.suspensions := by
  rw [List.filter_eq_self]
  intro s hs
  refine decide_eq_true ?_
  intro hhidden
  obtain ⟨e, he, hpath⟩ := hhidden
  obtain ⟨c, hc, hclosure, hbelow⟩ := hclosures e he
  rw [← path_of_frames_nil_of_nodeAt? hroot hc] at hpath
  exact not_prefix_of_mem_suspensions hclosure hbelow hs hpath

/-! ## Exchanging closures -/

/-- Closures at and below a node, apart from each other, are exchanged for any other closures.  The
machine of the node still suspends at the same paths, with the same kinds, in the same order, and
yields if it did before. -/
theorem closures_isolated {t : Tree} {version version' : Nat} {left right b : Node}
    {edits : List (Path × Tree)} (hleft : t.plant? version = some left) (hb : b ∈ left.preorder)
    (hold : ∀ e ∈ edits, ∃ c, left.nodeAt? e.1 = some c ∧ c.isClosure = true ∧ c ∈ b.preorder)
    (hnew : ∀ e ∈ edits, e.2.isClosure = true)
    (hapart : edits.Pairwise fun e f => ¬ e.1 <+: f.1 ∧ ¬ f.1 <+: e.1)
    (hright : (t.replaceAll edits).plant? version' = some right) :
    ∃ m, right.nodeAt? b.path = some m ∧
      b.suspensionPoints.value.map SuspensionPoint.place =
        m.suspensionPoints.value.map SuspensionPoint.place ∧
      b.isGenerator = m.isGenerator := by
  have hleftRoot := frames_of_plant? hleft
  have hrightRoot := frames_of_plant? hright
  obtain ⟨p, hp⟩ := mem_preorder_iff.mp hb
  rw [path_of_frames_nil_of_nodeAt? hleftRoot hp]
  have hclosures : ∀ e ∈ edits, ∃ c, left.nodeAt? e.1 = some c ∧ c.isClosure = true ∧
      b ∈ c.ancestors := by
    intro e he
    obtain ⟨c, hc, hclosure, hbelow⟩ := hold e he
    exact ⟨c, hc, hclosure, mem_preorder_iff_ancestors.mp hbelow⟩
  have hbelow : ∀ e ∈ edits, p <+: e.1 := by
    intro e he
    obtain ⟨c, hc, -, hbc⟩ := hclosures e he
    rw [← path_of_frames_nil_of_nodeAt? hleftRoot hp, ← path_of_frames_nil_of_nodeAt? hleftRoot hc]
    exact (mem_ancestors_iff_path.mp hbc).2
  obtain ⟨hagree, hheld⟩ := agreeOutside_of_replaceAll hleft
    (fun e he => (hclosures e he).imp fun _ hc => hc.1)
    (fun e he => Tree.exists_node_of_isClosure (hnew e he)) hapart hright
  obtain ⟨m, hm⟩ : ∃ m, right.nodeAt? p = some m := by
    by_cases hhidden : ∃ e ∈ edits, e.1 <+: p
    · obtain ⟨e, he, hpath⟩ := hhidden
      have hitself : e.1 = p := hpath.eq_of_length_le (hbelow e he).length_le
      obtain ⟨c, hc, -⟩ := hheld e he
      rw [hitself] at hc
      exact ⟨c, hc⟩
    · exact hagree.exists_right hhidden hp
  have hclosures' : ∀ e ∈ edits, ∃ c, right.nodeAt? e.1 = some c ∧ c.isClosure = true ∧
      m ∈ c.ancestors := by
    intro e he
    obtain ⟨c, hc, hkind⟩ := hheld e he
    refine ⟨c, hc, ?_, mem_ancestors_of_prefix hm hc (hbelow e he)⟩
    rw [isClosure, hkind]
    exact Tree.kind_of_isClosure (hnew e he)
  have hhides : HidesBelow fun p => ∃ e ∈ edits, e.1 <+: p := by
    rintro q r ⟨e, he, heq⟩ hqr
    exact ⟨e, he, heq.trans hqr⟩
  have hsame : b.suspensions = m.suspensions := by
    rw [← filter_suspensions_eq_self hleftRoot hclosures,
      ← filter_suspensions_eq_self hrightRoot hclosures']
    exact hagree.suspensions_eq hhides hleftRoot hrightRoot hp hm
  refine ⟨m, hm, ?_, ?_⟩
  · show b.resumePoints.map SuspensionPoint.place = m.resumePoints.map SuspensionPoint.place
    rw [map_place_resumePoints, map_place_resumePoints, hsame]
  · rw [isGenerator_eq_any_suspensions, isGenerator_eq_any_suspensions, hsame]

/-- A lambda that awaits and a local function that yields change places around an `await`.  The
block still suspends there and nowhere else, and still does not yield. -/
theorem closures_isolated_around_await :
    let name := Tree.node .identifierName [.token .identifier "a"]
    let await := Tree.node .awaitExpression [.token .awaitKw "await", name]
    let awaits := Tree.node .parenthesizedLambdaExpression [await]
    let yields := Tree.node .localFunctionStatement [.node .block [.node .yieldBreakStatement []]]
    let statement (e : Tree) := Tree.node .expressionStatement [e]
    let t := Tree.node .block [statement awaits, statement await, yields]
    let edits := [([0, 0], yields), ([2], awaits)]
    let left : Node := ⟨0, .block, [statement awaits, statement await, yields], []⟩
    let right : Node := ⟨1, .block, [statement yields, statement await, awaits], []⟩
    t.plant? 0 = some left ∧ (t.replaceAll edits).plant? 1 = some right ∧
      right.suspensionPoints.value.map SuspensionPoint.place = [([1, 0], .awaitExpression)] ∧
      right.isGenerator = false := by
  intro name await awaits yields statement t edits left right
  have hleft : t.plant? 0 = some left := rfl
  have hright : (t.replaceAll edits).plant? 1 = some right := rfl
  have hold : ∀ e ∈ edits, ∃ c, left.nodeAt? e.1 = some c ∧ c.isClosure = true ∧
      c ∈ left.preorder := by
    intro e he
    simp only [edits, List.mem_cons, List.not_mem_nil, or_false] at he
    rcases he with rfl | rfl
    · exact ⟨_, rfl, rfl, mem_preorder_iff.mpr ⟨[0, 0], rfl⟩⟩
    · exact ⟨_, rfl, rfl, mem_preorder_iff.mpr ⟨[2], rfl⟩⟩
  have hnew : ∀ e ∈ edits, e.2.isClosure = true := by decide
  obtain ⟨m, hm, hpoints, hgenerator⟩ := closures_isolated hleft
    (mem_preorder_iff.mpr ⟨[], rfl⟩) hold hnew (by decide) hright
  obtain rfl : right = m := Option.some.inj hm
  refine ⟨hleft, hright, ?_, ?_⟩
  · rw [← hpoints]
    decide +kernel
  · rw [← hgenerator]
    decide +kernel

end Node

end LiveEdit
