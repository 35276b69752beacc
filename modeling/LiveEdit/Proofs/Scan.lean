import LiveEdit.Proofs.Extent
import LiveEdit.Proofs.OwnCode
import LiveEdit.Proofs.SourceOrder

/-!
# What a scan reports

The scan of a node lists suspension points.  Which points it lists, and in which order, can be said
without the scan.

* `SuspendsAs` lists the ways in which a node can be written to suspend, and
  `suspension?_eq_some_iff` says that these are recognised and no others.
* `Reaches` says that a path leads down to a node and meets no closure before its end.  These
  nodes are the code of the machine: `mem_ownCode_iff_reaches`.
* `suspensionPoints_exact`: a scan reports what is reached and suspends, if it can be resumed, each
  node once and in source order.
* `pairwise_nested_preorder`: of two nodes in source order, the first holds the second or ends
  before it starts.  So points nest in the text: `suspensionPoints_nested`.
-/

namespace LiveEdit

theorem SuspensionKind.isResumable_iff {k : SuspensionKind} :
    k.isResumable = true ↔ k ≠ .yieldBreak := by
  cases k <;> simp [isResumable]

namespace Node

/-! ## How nodes suspend -/

/-- One of the tokens directly below the node is `await`. -/
def HasAwait (n : Node) : Prop := ∃ t ∈ n.tokens, t.kind = .awaitKw

/-- The ways in which a node can be written to suspend. -/
inductive SuspendsAs (n : Node) : SuspensionKind → Prop
  | awaitExpression (hkind : n.kind = .awaitExpression) : SuspendsAs n .awaitExpression
  | yieldReturn (hkind : n.kind = .yieldReturnStatement) : SuspendsAs n .yieldReturn
  | yieldBreak (hkind : n.kind = .yieldBreakStatement) : SuspendsAs n .yieldBreak
  | awaitForEach (hkind : n.kind = .forEachStatement) (hawait : n.HasAwait) :
      SuspendsAs n .awaitForEach
  | awaitUsing (hkind : n.kind = .usingStatement) (hawait : n.HasAwait) :
      SuspendsAs n .awaitUsing
  /-- One declarator of `await using var ...;`.  The `await` is a token of the statement. -/
  | declarator {list statement : Node} (hkind : n.kind = .variableDeclarator)
      (hparent : n ∈ list.childNodes) (hlist : list ∈ statement.childNodes)
      (hstatement : statement.kind = .localDeclarationStatement)
      (hawait : statement.HasAwait) : SuspendsAs n .awaitUsing

theorem await?_map_eq_some_iff {n : Node} {j k : SuspensionKind} :
    (n.await?.map fun _ => j) = some k ↔ n.HasAwait ∧ j = k := by
  have hawait : n.await?.isSome = true ↔ n.HasAwait := by
    rw [await?, token?, List.find?_isSome, HasAwait]
    simp only [beq_iff_eq]
  rw [← hawait]
  cases n.await? <;> simp

/-- The node two levels above a node. -/
theorem bind_parent?_eq_some_iff {n s : Node} :
    n.parent?.bind parent? = some s ↔ ∃ p, n ∈ p.childNodes ∧ p ∈ s.childNodes := by
  rw [Option.bind_eq_some_iff]
  constructor
  · intro h
    rcases h with ⟨p, hp, hs⟩
    exact ⟨p, mem_childNodes_of_parent? hp, mem_childNodes_of_parent? hs⟩
  · intro h
    rcases h with ⟨p, hp, hs⟩
    exact ⟨p, parent?_of_mem_childNodes hp, parent?_of_mem_childNodes hs⟩

theorem suspendsAs_of_suspension? {n : Node} {k : SuspensionKind} (hk : n.suspension? = some k) :
    n.SuspendsAs k := by
  unfold suspension? at hk
  split at hk
  next hkind =>
    obtain rfl := Option.some.inj hk
    exact .awaitExpression hkind
  next hkind =>
    obtain rfl := Option.some.inj hk
    exact .yieldReturn hkind
  next hkind =>
    obtain rfl := Option.some.inj hk
    exact .yieldBreak hkind
  next hkind =>
    obtain ⟨hawait, rfl⟩ := await?_map_eq_some_iff.mp hk
    exact .awaitForEach hkind hawait
  next hkind =>
    obtain ⟨hawait, rfl⟩ := await?_map_eq_some_iff.mp hk
    exact .awaitUsing hkind hawait
  next hkind =>
    obtain ⟨s, hs, hsuspends⟩ := Option.bind_eq_some_iff.mp hk
    obtain ⟨habove, hstatement⟩ := Option.filter_eq_some_iff.mp hs
    obtain ⟨p, hp, hps⟩ := bind_parent?_eq_some_iff.mp habove
    obtain ⟨hawait, rfl⟩ := await?_map_eq_some_iff.mp hsuspends
    exact .declarator hkind hp hps (beq_iff_eq.mp hstatement) hawait
  next => cases hk

/-- A node is recognised to suspend in the way in which it is written to suspend. -/
theorem suspension?_eq_some_iff {n : Node} {k : SuspensionKind} :
    n.suspension? = some k ↔ n.SuspendsAs k := by
  refine ⟨suspendsAs_of_suspension?, ?_⟩
  intro hsuspends
  cases hsuspends with
  | awaitExpression hkind => rw [suspension?, hkind]
  | yieldReturn hkind => rw [suspension?, hkind]
  | yieldBreak hkind => rw [suspension?, hkind]
  | awaitForEach hkind hawait =>
    rw [suspension?, hkind]
    exact await?_map_eq_some_iff.mpr ⟨hawait, rfl⟩
  | awaitUsing hkind hawait =>
    rw [suspension?, hkind]
    exact await?_map_eq_some_iff.mpr ⟨hawait, rfl⟩
  | @declarator p s hkind hp hps hstatement hawait =>
    have habove : n.parent?.bind parent? = some s := bind_parent?_eq_some_iff.mpr ⟨p, hp, hps⟩
    have hfilter : (n.parent?.bind parent?).filter (fun s => s.kind == .localDeclarationStatement) =
        some s := by
      rw [habove, Option.filter_some, if_pos (beq_iff_eq.mpr hstatement)]
    rw [suspension?, hkind]
    simp only [hfilter, Option.bind_some]
    exact await?_map_eq_some_iff.mpr ⟨hawait, rfl⟩

/-- The statements that mark a generator. -/
theorem any_isGenerator_iff {n : Node} :
    n.suspension?.any SuspensionKind.isGenerator = true ↔
      n.kind = .yieldReturnStatement ∨ n.kind = .yieldBreakStatement := by
  rw [Option.any_eq_true]
  constructor
  · intro h
    rcases h with ⟨k, hk, hgenerator⟩
    cases suspension?_eq_some_iff.mp hk with
    | yieldReturn hkind => exact .inl hkind
    | yieldBreak hkind => exact .inr hkind
    | awaitExpression | awaitForEach | awaitUsing | declarator => cases hgenerator
  · intro h
    rcases h with hkind | hkind
    · exact ⟨.yieldReturn, suspension?_eq_some_iff.mpr (.yieldReturn hkind), rfl⟩
    · exact ⟨.yieldBreak, suspension?_eq_some_iff.mpr (.yieldBreak hkind), rfl⟩

/-! ## What is reported -/

/-- A path leads from one node down to another and meets no closure before its end. -/
def Reaches (b n : Node) : Prop :=
  ∃ p, b.nodeAt? p = some n ∧
    ∀ q c, q <+: p → q ≠ p → b.nodeAt? q = some c → c.isClosure = false

/-- The code of a state machine is what a path without closures reaches. -/
theorem mem_ownCode_iff_reaches {b n : Node} : n ∈ b.ownCode ↔ b.Reaches n := by
  rw [ownCode, mem_walk_iff_path, Reaches]
  simp only [Bool.not_eq_true']

theorem map_node_resumePoints (b : Node) :
    b.resumePoints.map SuspensionPoint.node =
      b.ownCode.filter fun m => m.suspension?.any SuspensionKind.isResumable := by
  rw [resumePoints, List.map_filterMap, ← List.filterMap_eq_filter]
  apply List.filterMap_congr
  intro m _
  rw [resumePoint?, Option.guard]
  cases m.suspension? with
  | none => rfl
  | some k => cases k <;> rfl

/-- The nodes reported are listed in source order. -/
theorem map_node_resumePoints_sublist (b : Node) :
    (b.resumePoints.map SuspensionPoint.node).Sublist b.preorder := by
  rw [map_node_resumePoints]
  exact List.filter_sublist.trans (walk_sublist_preorder _ b)

/-- A scan reports a node as a point of some kind if and only if a path without closures leads to
the node, and the node is written to suspend in this way and can be resumed.  It reports no node
twice, keeps to source order, and never reports a `yield break`.  A machine yields if and only if a
path without closures leads to a `yield return` or to a `yield break`. -/
theorem suspensionPoints_exact (b : Node) :
    (∀ (n : Node) (k : SuspensionKind),
      ⟨k, n⟩ ∈ b.suspensionPoints.value ↔
        b.Reaches n ∧ n.SuspendsAs k ∧ k ≠ .yieldBreak) ∧
    (b.suspensionPoints.value.map SuspensionPoint.node).Nodup ∧
    (b.suspensionPoints.value.map SuspensionPoint.node).Sublist b.preorder ∧
    (∀ n : Node, ⟨.yieldBreak, n⟩ ∉ b.suspensionPoints.value) ∧
    (b.isGenerator = true ↔
      ∃ n, b.Reaches n ∧
        (n.kind = .yieldReturnStatement ∨ n.kind = .yieldBreakStatement)) := by
  have hsublist := map_node_resumePoints_sublist b
  have hmem : ∀ (n : Node) (k : SuspensionKind), ⟨k, n⟩ ∈ b.resumePoints ↔
      b.Reaches n ∧ n.SuspendsAs k ∧ k ≠ .yieldBreak := by
    intro n k
    rw [mem_resumePoints_iff, mem_ownCode_iff_reaches, suspension?_eq_some_iff,
      SuspensionKind.isResumable_iff]
  refine ⟨hmem, (nodup_preorder b).sublist hsublist, hsublist, ?_, ?_⟩
  · intro n hreported
    obtain ⟨-, -, hresumes⟩ := (hmem n .yieldBreak).mp hreported
    exact hresumes rfl
  · rw [isGenerator, List.any_eq_true]
    simp only [mem_ownCode_iff_reaches, any_isGenerator_iff]

/-! ## Places in the text -/

/-- Of two nodes in source order, the first one stands above the second one or ends before the
second one starts.  Everything below a child ends before the next child starts. -/
theorem pairwise_nested_preorder (n : Node) :
    n.preorder.Pairwise fun a b => a ∈ b.properAncestors ∨ a.stop ≤ b.start := by
  induction n using childInduction with
  | step n ih =>
    rw [preorder_eq, List.pairwise_cons, List.pairwise_flatMap]
    refine ⟨?_, ih, ?_⟩
    · intro x hx
      obtain ⟨m, hm, hxm⟩ := List.mem_flatMap.mp hx
      exact .inl (mem_properAncestors_trans (mem_properAncestors_of_mem_childNodes hm)
        (mem_preorder_iff_ancestors.mp hxm))
    · refine (pairwise_index_childNodes n).imp_of_mem ?_
      intro c d hc hd hlt x hx y hy
      obtain ⟨i, hi⟩ := mem_childNodes_iff.mp hc
      obtain ⟨j, hj⟩ := mem_childNodes_iff.mp hd
      rw [index_of_childNode? hi, index_of_childNode? hj] at hlt
      have happart := stop_le_start_of_lt hlt hi hj
      have hxc := within_of_mem_preorder hx
      have hyd := within_of_mem_preorder hy
      exact .inr (by omega)

/-- The points of a node are listed by their starts, and each one is listed once.  They lie in the
node, and of two points the first one holds the second one or ends before it starts. -/
theorem suspensionPoints_nested (b : Node) :
    (b.suspensionPoints.value.Pairwise fun p q =>
      p.node.start ≤ q.node.start ∧
        (p.node ∈ q.node.properAncestors ∧ q.node.stop ≤ p.node.stop ∨
          p.node.stop ≤ q.node.start)) ∧
    (∀ p ∈ b.suspensionPoints.value, b.start ≤ p.node.start ∧ p.node.stop ≤ b.stop) ∧
    (b.suspensionPoints.value.map fun p => p.node.path).Nodup := by
  have hsublist := map_node_resumePoints_sublist b
  refine ⟨?_, ?_, ?_⟩
  · have hnested := List.pairwise_map.mp ((pairwise_nested_preorder b).sublist hsublist)
    refine hnested.imp ?_
    intro p q hpq
    rcases hpq with habove | happart
    · have hwithin := within_of_mem_ancestors (mem_properAncestors_iff.mp habove).1
      exact ⟨hwithin.1, .inl ⟨habove, hwithin.2⟩⟩
    · exact ⟨Nat.le_trans (start_le_stop p.node) happart, .inr happart⟩
  · intro p hp
    exact within_of_mem_ancestors (mem_ancestors_of_mem_resumePoints hp)
  · have hpaths := (nodup_path_preorder b).sublist (hsublist.map path)
    rwa [List.map_map] at hpaths

/-- An `await` in a `yield return` in an `await using`: three points, each one in the one before.
The `await` in the lambda behind them is none. -/
example :
    let await (x : String) := Tree.node .awaitExpression
      [.token .awaitKw "await ", .node .identifierName [.token .identifier x]]
    let yields := Tree.node .yieldReturnStatement
      [.token .yieldKw "yield ", .token .returnKw "return ", await "a", .token .semicolon ";"]
    let resource := Tree.node .usingStatement
      [.token .awaitKw "await ", .token .usingKw "using ", .node .block [yields]]
    let lambda := Tree.node .parenthesizedLambdaExpression [await "b"]
    let block : Node := ⟨0, .block, [resource, .node .expressionStatement [lambda]], []⟩
    block.suspensionPoints.value.map (fun p => (p.kind, p.node.path, p.node.range)) =
      [(.awaitUsing, [0], ⟨0, 33⟩), (.yieldReturn, [0, 2, 0], ⟨12, 33⟩),
        (.awaitExpression, [0, 2, 0, 2], ⟨25, 32⟩)] := by
  decide +kernel

end Node

end LiveEdit
