import LiveEdit.Proofs.Lockstep
import LiveEdit.Proofs.OwnCode

/-!
# Trees that agree outside a set of paths

`Node.outline` is the kind of a node and the sorts of its children.  `AgreeOutside hidden` relates
two trees that have the same outlines at all paths that are not hidden.

* `suspension?_congr`: the classification of a node reads two nodes only, and of each one only
  `Node.cue`, which the outline decides.
* `AgreeOutside.filterMap_walk_eq`: walks in agreeing trees list the same nodes outside the hidden
  paths, in the same order.
* `Node.suspensions` lists where and how a state machine suspends.  `AgreeOutside.suspensions_eq`:
  outside the hidden paths, agreeing trees suspend alike.
* `AgreeOutside.partner_eq`: a lookup of a node that is not hidden arrives.
-/

namespace LiveEdit

/-- The kind of a tree that is a token. -/
def Tree.tokenKind? : Tree → Option Kind
  | .token k _ => some k
  | .node .. => none

/-- A suspension point as its path and its kind. -/
def SuspensionPoint.place (s : SuspensionPoint) : Path × SuspensionKind := (s.node.path, s.kind)

/-- Optional values with equal images are both there or both absent. -/
theorem none_or_some_of_map_eq {α β : Type} {f : α → β} {x y : Option α}
    (hmap : x.map f = y.map f) :
    (x = none ∧ y = none) ∨ ∃ a b, x = some a ∧ y = some b ∧ f a = f b := by
  cases x with
  | none => exact .inl ⟨rfl, Option.map_eq_none_iff.mp hmap.symm⟩
  | some a =>
    obtain ⟨b, rfl, hb⟩ := Option.map_eq_some_iff.mp hmap.symm
    exact .inr ⟨a, b, rfl, rfl, hb.symm⟩

namespace Node

/-! ## Outlines -/

/-- The kind of a node, and for each child the kind of the token that it is, or that it is a
node. -/
def outline (n : Node) : Kind × List (Option Kind) := (n.kind, n.children.map Tree.tokenKind?)

theorem kind_eq_of_outline_eq {a b : Node} (houtline : a.outline = b.outline) :
    a.kind = b.kind :=
  congrArg Prod.fst houtline

theorem length_children_of_outline_eq {a b : Node} (houtline : a.outline = b.outline) :
    a.children.length = b.children.length := by
  have hlength := congrArg (fun o => o.2.length) houtline
  simpa [outline] using hlength

/-- A child is a node if the outline says so. -/
theorem isSome_childNode?_iff {n : Node} {i : Nat} :
    (n.childNode? i).isSome = true ↔ n.outline.2[i]? = some none := by
  rw [childNode?, elements_getElem?, outline]
  simp only [List.getElem?_map]
  cases n.children[i]? with
  | none => simp
  | some t => cases t <;> simp [element, Element.node?, Tree.tokenKind?]

theorem isSome_childNode?_congr {a b : Node} (houtline : a.outline = b.outline) (i : Nat) :
    (a.childNode? i).isSome = (b.childNode? i).isSome := by
  rw [Bool.eq_iff_iff, isSome_childNode?_iff, isSome_childNode?_iff, houtline]

/-- A token is a child if the outline says so. -/
theorem isSome_token?_iff {n : Node} {k : Kind} :
    (n.token? k).isSome = true ↔ some k ∈ n.outline.2 := by
  rw [token?, List.find?_isSome, outline, List.mem_map]
  constructor
  · intro h
    rcases h with ⟨t, ht, hkind⟩
    obtain ⟨e, he, het⟩ := List.mem_filterMap.mp ht
    obtain ⟨i, hi⟩ := List.mem_iff_getElem?.mp he
    rw [elements_getElem?, Option.map_eq_some_iff] at hi
    obtain ⟨u, hu, rfl⟩ := hi
    refine ⟨u, List.mem_of_getElem? hu, ?_⟩
    cases u with
    | token j s =>
      rw [← Option.some.inj het] at hkind
      exact congrArg some (beq_iff_eq.mp hkind)
    | node j cs => cases het
  · intro h
    rcases h with ⟨u, hu, hkind⟩
    obtain ⟨i, hi⟩ := List.mem_iff_getElem?.mp hu
    cases u with
    | token j s =>
      obtain rfl := Option.some.inj hkind
      refine ⟨⟨n, i, j, s⟩, ?_, beq_self_eq_true j⟩
      refine List.mem_filterMap.mpr ⟨.token ⟨n, i, j, s⟩, ?_, rfl⟩
      apply List.mem_of_getElem? (i := i)
      rw [elements_getElem?, hi]
      rfl
    | node j cs => cases hkind

/-! ## Classification -/

/-- What the classification reads of one node: its kind, and whether it has an `await` token. -/
def cue (n : Node) : Kind × Bool := (n.kind, n.await?.isSome)

theorem cue_eq_of_outline_eq {a b : Node} (houtline : a.outline = b.outline) : a.cue = b.cue := by
  have hawait : a.await?.isSome = b.await?.isSome := by
    rw [Bool.eq_iff_iff, await?, isSome_token?_iff, await?, isSome_token?_iff, houtline]
  rw [cue, cue, kind_eq_of_outline_eq houtline, hawait]

theorem map_cue_eq_of_map_outline_eq {x y : Option Node}
    (houtline : x.map outline = y.map outline) : x.map cue = y.map cue := by
  rcases none_or_some_of_map_eq houtline with ⟨hx, hy⟩ | ⟨a, b, hx, hy, hab⟩
  · rw [hx, hy]
  · rw [hx, hy]
    exact congrArg some (cue_eq_of_outline_eq hab)

theorem await?_map_congr {α : Type} {a b : Node} (hcue : a.cue = b.cue) (x : α) :
    (a.await?.map fun _ => x) = b.await?.map fun _ => x := by
  have hawait : a.await?.isSome = b.await?.isSome := congrArg Prod.snd hcue
  cases ha : a.await? <;> cases hb : b.await? <;> simp_all

/-- A node that is no declarator is classified by its cue alone. -/
theorem suspension?_congr_of_kind {a b : Node} (hcue : a.cue = b.cue)
    (hkind : a.kind ≠ .variableDeclarator) : a.suspension? = b.suspension? := by
  have hawait := await?_map_congr hcue (α := SuspensionKind)
  have hsame : a.kind = b.kind := congrArg Prod.fst hcue
  unfold suspension?
  rw [← hsame]
  split
  · rfl
  · rfl
  · rfl
  · exact hawait _
  · exact hawait _
  · rename_i hdeclarator
    exact absurd hdeclarator hkind
  · rfl

/-- A declarator is classified by what stands two levels up. -/
theorem suspension?_of_declarator {n : Node} (hkind : n.kind = .variableDeclarator) :
    n.suspension? =
      ((n.parent?.bind parent?).filter fun s => s.kind == .localDeclarationStatement).bind fun s =>
        s.await?.map fun _ => .awaitUsing := by
  rw [suspension?, hkind]

/-- The classification of a node depends on its cue and on the cue two levels up. -/
theorem suspension?_congr {a b : Node} (hcue : a.cue = b.cue)
    (habove : (a.parent?.bind parent?).map cue = (b.parent?.bind parent?).map cue) :
    a.suspension? = b.suspension? := by
  by_cases hkind : a.kind = .variableDeclarator
  · have hsame : a.kind = b.kind := congrArg Prod.fst hcue
    rw [suspension?_of_declarator hkind, suspension?_of_declarator (hsame ▸ hkind)]
    rcases none_or_some_of_map_eq habove with ⟨ha, hb⟩ | ⟨c, d, ha, hb, houter⟩
    · rw [ha, hb]
    · have houterKind : c.kind = d.kind := congrArg Prod.fst houter
      rw [ha, hb]
      simp only [Option.filter_some, houterKind]
      split
      · exact await?_map_congr houter _
      · rfl
  · exact suspension?_congr_of_kind hcue hkind

/-! ## Agreement -/

/-- Two trees have nodes with one outline at every path that is not hidden. -/
def AgreeOutside (hidden : Path → Prop) (left right : Node) : Prop :=
  ∀ p, ¬ hidden p → (left.nodeAt? p).map outline = (right.nodeAt? p).map outline

/-- With a path, everything below it is hidden. -/
def HidesBelow (hidden : Path → Prop) : Prop := ∀ p q, hidden p → p <+: q → hidden q

section

variable {hidden : Path → Prop} {left right : Node}

theorem AgreeOutside.outline_eq (hagree : AgreeOutside hidden left right) {p : Path}
    (hp : ¬ hidden p) {a b : Node} (ha : left.nodeAt? p = some a)
    (hb : right.nodeAt? p = some b) : a.outline = b.outline := by
  have houtline := hagree p hp
  rw [ha, hb] at houtline
  exact Option.some.inj houtline

theorem AgreeOutside.exists_right (hagree : AgreeOutside hidden left right) {p : Path}
    (hp : ¬ hidden p) {a : Node} (ha : left.nodeAt? p = some a) :
    ∃ b, right.nodeAt? p = some b := by
  have houtline := hagree p hp
  rw [ha, Option.map_some] at houtline
  obtain ⟨b, hb, -⟩ := Option.map_eq_some_iff.mp houtline.symm
  exact ⟨b, hb⟩

theorem parent?_of_frames_nil {n : Node} (hframes : n.frames = []) : n.parent? = none := by
  rw [parent?, properAncestors_of_frames_nil hframes]
  rfl

/-- The path to the parent is one step shorter. -/
theorem parent?_of_nodeAt?_concat {n m : Node} {p : Path} {i : Nat}
    (hm : n.nodeAt? (p ++ [i]) = some m) : m.parent? = n.nodeAt? p := by
  rw [nodeAt?_concat] at hm
  obtain ⟨a, ha, hchild⟩ := Option.bind_eq_some_iff.mp hm
  rw [ha, parent?_of_mem_childNodes (mem_childNodes_of_childNode? hchild)]

theorem bind_parent?_of_concat (n : Node) (p : Path) (i : Nat) :
    (n.nodeAt? (p ++ [i])).bind parent? = (n.nodeAt? (p ++ [i])).bind fun _ => n.nodeAt? p := by
  apply Option.bind_congr
  intro m hm
  exact parent?_of_nodeAt?_concat hm

/-- Two levels up, trees that agree at a path agree too, if they are whole. -/
theorem AgreeOutside.above_eq (hagree : AgreeOutside hidden left right)
    (hbelow : HidesBelow hidden) (hleft : left.frames = []) (hright : right.frames = [])
    {p : Path} (hp : ¬ hidden p) {a b : Node} (ha : left.nodeAt? p = some a)
    (hb : right.nodeAt? p = some b) :
    (a.parent?.bind parent?).map outline = (b.parent?.bind parent?).map outline := by
  rcases List.eq_nil_or_concat p with rfl | ⟨q, i, rfl⟩
  · rw [← Option.some.inj ha, ← Option.some.inj hb, parent?_of_frames_nil hleft,
      parent?_of_frames_nil hright]
  · rw [List.concat_eq_append] at hp ha hb
    rw [parent?_of_nodeAt?_concat ha, parent?_of_nodeAt?_concat hb]
    rcases List.eq_nil_or_concat q with rfl | ⟨r, j, rfl⟩
    · simp only [nodeAt?, Option.bind_some]
      rw [parent?_of_frames_nil hleft, parent?_of_frames_nil hright]
    · rw [List.concat_eq_append] at hp ⊢
      have hparent : ¬ hidden (r ++ [j]) := fun h => hp (hbelow _ _ h (List.prefix_append _ [i]))
      have habove : ¬ hidden r := fun h => hparent (hbelow _ _ h (List.prefix_append r [j]))
      rw [bind_parent?_of_concat, bind_parent?_of_concat]
      rcases none_or_some_of_map_eq (hagree (r ++ [j]) hparent) with
        ⟨hl, hr⟩ | ⟨c, d, hl, hr, -⟩
      · rw [hl, hr]
        rfl
      · rw [hl, hr]
        exact hagree r habove

/-- Two nodes at one path that is not hidden are classified alike. -/
theorem AgreeOutside.suspension?_eq (hagree : AgreeOutside hidden left right)
    (hbelow : HidesBelow hidden) (hleft : left.frames = []) (hright : right.frames = [])
    {p : Path} (hp : ¬ hidden p) {a b : Node} (ha : left.nodeAt? p = some a)
    (hb : right.nodeAt? p = some b) : a.suspension? = b.suspension? :=
  suspension?_congr (cue_eq_of_outline_eq (hagree.outline_eq hp ha hb))
    (map_cue_eq_of_map_outline_eq (hagree.above_eq hbelow hleft hright hp ha hb))

/-! ## Walks in agreeing trees -/

/-- The lists that the child nodes give are given by the elements that are nodes. -/
theorem flatMap_childNodes {β : Type} (n : Node) (g : Node → List β) :
    n.childNodes.flatMap g = n.elements.flatMap fun e => (e.node?.map g).getD [] := by
  rw [childNodes]
  induction n.elements with
  | nil => rfl
  | cons e es ih =>
    rw [List.filterMap_cons, List.flatMap_cons]
    cases e.node? with
    | none => exact ih
    | some m => rw [List.flatMap_cons, ih, Option.map_some, Option.getD_some]

/-- Two nodes with equally many children give one list if the children at each index do. -/
theorem flatMap_childNodes_congr {β : Type} {a b : Node} {g : Node → List β}
    (hlength : a.children.length = b.children.length)
    (hchild : ∀ i, ((a.childNode? i).map g).getD [] = ((b.childNode? i).map g).getD []) :
    a.childNodes.flatMap g = b.childNodes.flatMap g := by
  rw [flatMap_childNodes, flatMap_childNodes, List.flatMap_def, List.flatMap_def]
  congr 1
  apply List.ext_getElem
  · rw [List.length_map, List.length_map, elements_length, elements_length, hlength]
  · intro i hi hj
    rw [List.length_map] at hi hj
    rw [List.getElem_map, List.getElem_map]
    have hi' := hchild i
    rwa [childNode?, childNode?, List.getElem?_eq_getElem hi, List.getElem?_eq_getElem hj] at hi'

/-- Walks in agreeing trees list the same nodes outside the hidden paths, in the same order. -/
theorem AgreeOutside.filterMap_walk_eq {β : Type} {enter : Node → Bool} {f : Node → Option β}
    (hagree : AgreeOutside hidden left right) (hbelow : HidesBelow hidden)
    (hleft : left.frames = []) (hright : right.frames = [])
    (henter : ∀ a b : Node, a.kind = b.kind → enter a = enter b)
    (hnone : ∀ a : Node, hidden a.path → f a = none)
    (hsome : ∀ p a b, ¬ hidden p → left.nodeAt? p = some a → right.nodeAt? p = some b → f a = f b)
    {p : Path} {a b : Node} (ha : left.nodeAt? p = some a) (hb : right.nodeAt? p = some b) :
    (a.walk enter).filterMap f = (b.walk enter).filterMap f := by
  have hempty : ∀ n : Node, hidden n.path → (n.walk enter).filterMap f = [] := by
    intro n hn
    rw [List.filterMap_eq_nil_iff]
    intro m hm
    exact hnone m (hbelow _ _ hn (mem_ancestors_iff_path.mp (mem_walk_iff.mp hm).1).2)
  induction a using childInduction generalizing p b with
  | step a ih =>
    by_cases hp : hidden p
    · rw [hempty a (path_of_frames_nil_of_nodeAt? hleft ha ▸ hp),
        hempty b (path_of_frames_nil_of_nodeAt? hright hb ▸ hp)]
    · have houtline := hagree.outline_eq hp ha hb
      have hchildren : (a.childNodes.flatMap (walk enter)).filterMap f =
          (b.childNodes.flatMap (walk enter)).filterMap f := by
        rw [List.filterMap_flatMap, List.filterMap_flatMap]
        apply flatMap_childNodes_congr (length_children_of_outline_eq houtline)
        intro i
        have hboth := isSome_childNode?_congr houtline i
        cases hl : a.childNode? i with
        | none =>
          rw [hl] at hboth
          rw [Option.not_isSome_iff_eq_none.mp (Bool.eq_false_iff.mp hboth.symm)]
        | some c =>
          rw [hl] at hboth
          obtain ⟨d, hr⟩ := Option.isSome_iff_exists.mp hboth.symm
          rw [hr]
          apply ih c (mem_childNodes_of_childNode? hl) (p := p ++ [i])
          · rw [nodeAt?_concat, ha, Option.bind_some, hl]
          · rw [nodeAt?_concat, hb, Option.bind_some, hr]
      have hbelow : (if enter a then a.childNodes.flatMap (walk enter) else []).filterMap f =
          (if enter b then b.childNodes.flatMap (walk enter) else []).filterMap f := by
        rw [henter a b (kind_eq_of_outline_eq houtline)]
        split
        · exact hchildren
        · rfl
      rw [walk_eq enter a, walk_eq enter b, List.filterMap_cons, List.filterMap_cons,
        hsome p a b hp ha hb, hbelow]

/-! ## The suspension points of agreeing trees -/

/-- The nodes that suspend the state machine of a node, each as its path and its kind. -/
def suspensions (n : Node) : List (Path × SuspensionKind) :=
  n.ownCode.filterMap fun m => m.suspension?.map fun k => (m.path, k)

/-- The suspension points are the suspensions after which the machine can resume. -/
theorem map_place_resumePoints (n : Node) :
    n.resumePoints.map SuspensionPoint.place = n.suspensions.filter fun s => s.2.isResumable := by
  rw [resumePoints, suspensions, List.map_filterMap, List.filter_filterMap]
  congr 1
  funext m
  rw [resumePoint?]
  cases m.suspension? with
  | none => rfl
  | some k =>
    simp only [Option.map_some, Option.filter_some]
    cases k.isResumable <;> rfl

/-- A machine yields if one of its suspensions does. -/
theorem isGenerator_eq_any_suspensions (n : Node) :
    n.isGenerator = n.suspensions.any fun s => s.2.isGenerator := by
  rw [isGenerator, suspensions, List.any_filterMap]
  congr 1
  funext m
  cases m.suspension? <;> rfl

/-- The suspensions that are not hidden stand at the same paths and have the same kinds, in the
same order. -/
theorem AgreeOutside.suspensions_eq [DecidablePred hidden]
    (hagree : AgreeOutside hidden left right) (hbelow : HidesBelow hidden)
    (hleft : left.frames = []) (hright : right.frames = []) {p : Path} {a b : Node}
    (ha : left.nodeAt? p = some a) (hb : right.nodeAt? p = some b) :
    (a.suspensions.filter fun s => ¬ hidden s.1) = b.suspensions.filter fun s => ¬ hidden s.1 := by
  rw [suspensions, suspensions, List.filter_filterMap, List.filter_filterMap, ownCode, ownCode]
  apply hagree.filterMap_walk_eq hbelow hleft hright _ _ _ ha hb
  · intro c d hkind
    rw [isClosure, isClosure, hkind]
  · intro c hc
    cases c.suspension? with
    | none => rfl
    | some k => simp [hc]
  · intro q c d hq hc hd
    have hcpath := path_of_frames_nil_of_nodeAt? hleft hc
    have hdpath := path_of_frames_nil_of_nodeAt? hright hd
    rw [hagree.suspension?_eq hbelow hleft hright hq hc hd, hcpath, hdpath]

/-- The suspension points that are not hidden stand at the same paths and have the same kinds, in
the same order. -/
theorem AgreeOutside.resumePoints_eq [DecidablePred hidden]
    (hagree : AgreeOutside hidden left right) (hbelow : HidesBelow hidden)
    (hleft : left.frames = []) (hright : right.frames = []) {p : Path} {a b : Node}
    (ha : left.nodeAt? p = some a) (hb : right.nodeAt? p = some b) :
    (a.resumePoints.filter fun s => ¬ hidden s.node.path).map SuspensionPoint.place =
      (b.resumePoints.filter fun s => ¬ hidden s.node.path).map SuspensionPoint.place := by
  have hvisible : ∀ n : Node,
      (n.resumePoints.filter fun s => ¬ hidden s.node.path).map SuspensionPoint.place =
        (n.suspensions.filter fun s => ¬ hidden s.1).filter fun s => s.2.isResumable := by
    intro n
    rw [List.filter_filter]
    simp only [Bool.and_comm]
    rw [← List.filter_filter, ← map_place_resumePoints, List.filter_map]
    rfl
  rw [hvisible, hvisible, hagree.suspensions_eq hbelow hleft hright ha hb]

/-! ## Partners in agreeing trees -/

/-- A lookup of a node that is not hidden arrives at the right node at its path. -/
theorem AgreeOutside.partner_eq (hagree : AgreeOutside hidden left right)
    (hbelow : HidesBelow hidden) {p : Path} (hp : ¬ hidden p) {a b : Node}
    (ha : left.nodeAt? p = some a) (hb : right.nodeAt? p = some b) (hwidth : a.width ≠ 0) :
    left.partner right a = .ok (some b) := by
  rw [partner_eq_ok_some_iff ha hwidth]
  refine ⟨?_, hb⟩
  intro q i hq
  have habove : q <+: p := (List.prefix_append q [i]).trans hq
  have hvisible : ¬ hidden q := fun h => hp (hbelow q p h habove)
  obtain ⟨c, hc⟩ := exists_nodeAt?_of_prefix ha habove
  obtain ⟨d, hd⟩ := hagree.exists_right hvisible hc
  exact ⟨c, d, hc, hd, kind_eq_of_outline_eq (hagree.outline_eq hvisible hc hd)⟩

end

end Node

end LiveEdit
