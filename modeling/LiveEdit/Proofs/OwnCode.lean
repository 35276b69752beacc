import LiveEdit.Suspension
import LiveEdit.Proofs.Position
import Mathlib.Data.List.Flatten

/-!
# The code of one state machine

A walk lists a node if all nodes between its start and the node are entered: `mem_walk_iff`, or
`mem_walk_iff_path` in terms of paths.  It keeps the order of the whole list:
`walk_sublist_preorder`.  For the code of a state machine these are the nodes that no closure
separates from the start, and `mem_resumePoints_iff` reads the suspension points off them.
-/

namespace LiveEdit.Node

/-- A walk reaches the nodes at and below its start for which all nodes on the way are entered.  On
the way to a node below a child there are the start, the child, and what is on the way from the
child. -/
theorem mem_walk_iff {enter : Node → Bool} {n m : Node} :
    m ∈ n.walk enter ↔
      n ∈ m.ancestors ∧ ∀ c ∈ m.properAncestors, n ∈ c.ancestors → enter c = true := by
  induction n using childInduction with
  | step n ih =>
    rw [walk_eq, List.mem_cons]
    constructor
    · intro h
      rcases h with rfl | hm
      · refine ⟨mem_ancestors_self m, ?_⟩
        intro c hc hmc
        obtain ⟨hcm, hne⟩ := mem_properAncestors_iff.mp hc
        exact absurd (mem_ancestors_antisymm hcm hmc) hne
      · split at hm
        · rename_i henter
          obtain ⟨d, hd, hmd⟩ := List.mem_flatMap.mp hm
          obtain ⟨hdm, hentered⟩ := (ih d hd).mp hmd
          refine ⟨mem_ancestors_trans (mem_ancestors_of_mem_childNodes hd) hdm, ?_⟩
          intro c hc hnc
          have hcm := (mem_properAncestors_iff.mp hc).1
          rcases mem_ancestors_total hdm hcm with hdc | hcd
          · exact hentered c hc hdc
          · rw [ancestors_of_mem_childNodes hd, List.mem_cons] at hcd
            rcases hcd with rfl | hcn
            · exact hentered c hc (mem_ancestors_self c)
            · have hstart : c = n := mem_ancestors_antisymm hcn hnc
              rwa [hstart]
        · cases hm
    · intro h
      rcases h with ⟨hnm, hentered⟩
      obtain ⟨p, hp⟩ := mem_ancestors_iff.mp hnm
      cases p with
      | nil => exact .inl (Option.some.inj hp).symm
      | cons i p =>
        obtain ⟨d, hd, hdm⟩ := Option.bind_eq_some_iff.mp hp
        have habove : d ∈ m.ancestors := mem_ancestors_iff.mpr ⟨p, hdm⟩
        have hchild := mem_childNodes_of_childNode? hd
        have henter : enter n = true :=
          hentered n
            (mem_properAncestors_trans (mem_properAncestors_of_mem_childNodes hchild) habove)
            (mem_ancestors_self n)
        right
        rw [if_pos henter, List.mem_flatMap]
        refine ⟨d, hchild, (ih d hchild).mpr ⟨habove, ?_⟩⟩
        intro c hc hdc
        exact hentered c hc (mem_ancestors_trans (mem_ancestors_of_mem_childNodes hchild) hdc)

/-- A walk reaches the nodes to which a path leads that meets only entered nodes before its end. -/
theorem mem_walk_iff_path {enter : Node → Bool} {n m : Node} :
    m ∈ n.walk enter ↔
      ∃ p, n.nodeAt? p = some m ∧
        ∀ q c, q <+: p → q ≠ p → n.nodeAt? q = some c → enter c = true := by
  rw [mem_walk_iff, mem_ancestors_iff]
  constructor
  · intro h
    rcases h with ⟨⟨p, hp⟩, hentered⟩
    refine ⟨p, hp, ?_⟩
    intro q c hqp hne hc
    have hcm : c ≠ m := by
      intro h
      rw [h] at hc
      exact hne (nodeAt?_injective hc hp)
    have habove := mem_ancestors_of_prefix hc hp hqp
    exact hentered c (mem_properAncestors_iff.mpr ⟨habove, hcm⟩) (mem_ancestors_iff.mpr ⟨q, hc⟩)
  · intro h
    rcases h with ⟨p, hp, hentered⟩
    refine ⟨⟨p, hp⟩, ?_⟩
    intro c habove hnc
    obtain ⟨hcm, hne⟩ := mem_properAncestors_iff.mp habove
    obtain ⟨q, hq⟩ := mem_ancestors_iff.mp hnc
    have hqp : q ≠ p := by
      intro h
      rw [h, hp] at hq
      exact hne (Option.some.inj hq).symm
    exact hentered q c ((mem_ancestors_iff_of_nodeAt? hq hp).mp hcm) hqp hq

/-- A walk lists what it reaches in the order of the whole list. -/
theorem walk_sublist_preorder (enter : Node → Bool) (n : Node) :
    (n.walk enter).Sublist n.preorder := by
  induction n using childInduction with
  | step n ih =>
    rw [walk_eq, preorder_eq]
    apply List.Sublist.cons_cons
    split
    · exact List.Sublist.flatMap_right n.childNodes ih
    · exact List.nil_sublist _

/-- The code of a state machine is what no closure separates from its start. -/
theorem mem_ownCode_iff {n m : Node} :
    m ∈ n.ownCode ↔
      n ∈ m.ancestors ∧ ∀ c ∈ m.properAncestors, n ∈ c.ancestors → c.isClosure = false := by
  rw [ownCode, mem_walk_iff]
  simp only [Bool.not_eq_true']

theorem resumePoint?_eq_some_iff {m : Node} {p : SuspensionPoint} :
    m.resumePoint? = some p ↔
      m.suspension? = some p.kind ∧ p.kind.isResumable = true ∧ p.node = m := by
  obtain ⟨k, n⟩ := p
  rw [resumePoint?, Option.map_eq_some_iff]
  constructor
  · intro h
    rcases h with ⟨j, hj, heq⟩
    obtain ⟨rfl, rfl⟩ := SuspensionPoint.mk.inj heq
    obtain ⟨hsuspends, hresumes⟩ := Option.filter_eq_some_iff.mp hj
    exact ⟨hsuspends, hresumes, rfl⟩
  · intro h
    rcases h with ⟨hsuspends, hresumes, rfl⟩
    exact ⟨k, Option.filter_eq_some_iff.mpr ⟨hsuspends, hresumes⟩, rfl⟩

/-- The suspension points of a node are the nodes of its state machine that suspend and can
resume. -/
theorem mem_resumePoints_iff {n : Node} {p : SuspensionPoint} :
    p ∈ n.resumePoints ↔
      p.node ∈ n.ownCode ∧ p.node.suspension? = some p.kind ∧ p.kind.isResumable = true := by
  rw [resumePoints, List.mem_filterMap]
  constructor
  · intro h
    rcases h with ⟨m, hm, hp⟩
    obtain ⟨hsuspends, hresumes, rfl⟩ := resumePoint?_eq_some_iff.mp hp
    exact ⟨hm, hsuspends, hresumes⟩
  · intro h
    rcases h with ⟨hm, hsuspends, hresumes⟩
    exact ⟨p.node, hm, resumePoint?_eq_some_iff.mpr ⟨hsuspends, hresumes, rfl⟩⟩

theorem mem_ancestors_of_mem_resumePoints {n : Node} {p : SuspensionPoint}
    (hp : p ∈ n.resumePoints) : n ∈ p.node.ancestors :=
  (mem_ownCode_iff.mp (mem_resumePoints_iff.mp hp).1).1

end LiveEdit.Node
