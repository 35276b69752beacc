import LiveEdit.Proofs.Drafts
import LiveEdit.Proofs.Edit

/-!
# Starts and ends of nodes

The steps of a build are balanced if every end closes a node that was started, and no node is left
open.  A builder refuses an end without an open node.  It does not refuse a node that is left open:
the root is handed over as soon as one element has been finished.

* `opened` counts the nodes that are open after steps; `opened_of_steps` says that the builder
  counts the same.
* `Writes` says that steps write one sketch, with starts before and behind it that nothing ends.
  `build_eq_ok_iff`: a tree is handed over exactly in this case.
* `map_spelling_leaves_of_build`: a tree that is handed over has every token that was added.
* `build_under_contract` says when the contract, that only balanced steps give a tree, is honoured,
  and `build_forgets_open_node` breaks it.
-/

namespace LiveEdit.Builder

/-! ## Open nodes -/

/-- The number of nodes that are open after plain steps, given the number before them.  There is no
such number if a step ends a node and none is open. -/
def opened (count : Nat) : List Step → Option Nat
  | [] => some count
  | .start _ :: ss => opened (count + 1) ss
  | .finish :: ss => if count = 0 then none else opened (count - 1) ss
  | _ :: ss => opened count ss

/-- Every end closes a node that was started, and no node is left open. -/
def Balanced (ss : List Step) : Prop := opened 0 (Step.plainAll ss) = some 0

/-- The tokens that steps add, in order. -/
def addedTokens (ss : List Step) : List (Kind × String) :=
  (Step.plainAll ss).filterMap Step.token?

/-- The builder has as many open nodes as the count says. -/
theorem opened_of_steps {b c : Builder} {ss : List Step} (hplain : ∀ s ∈ ss, s.IsPlain)
    (hsteps : b.steps ss = .ok c) : opened b.pending.length ss = some c.pending.length := by
  induction ss generalizing b with
  | nil =>
    obtain rfl := Except.ok.inj hsteps
    rfl
  | cons s ss ih =>
    obtain ⟨hs, hss⟩ := List.forall_mem_cons.mp hplain
    obtain ⟨d, hd, hrest⟩ := exists_step_of_steps_cons hsteps
    have hcount := ih hss hrest
    rcases step_cases hs hd with ⟨k, rfl, -, rfl⟩ | ⟨k, before, outer, rfl, hpending, rfl⟩ |
      ⟨k, text, rfl, -, rfl⟩
    · rwa [opened]
    · rw [opened, hpending, List.length_cons, if_neg (Nat.succ_ne_zero _), Nat.add_sub_cancel]
      exact hcount
    · exact hcount

/-! ## The outcome of a build -/

theorem root_eq_ok_iff {b : Builder} {version : Nat} {n : Node} :
    b.root version = .ok n ↔ ∃ t, b.elements = [t] ∧ t.plant? version = some n := by
  rw [root]
  split
  case h_1 t ht =>
    rw [ht]
    cases hplant : t.plant? version <;> simp [hplant]
  case h_2 hmany =>
    constructor
    · intro h
      cases h
    · intro h
      obtain ⟨t, ht, -⟩ := h
      exact absurd ht (hmany t)

/-- If no step fails, the outcome is the root. -/
theorem buildFrom_of_steps {b c : Builder} {ss : List Step} (hsteps : b.steps ss = .ok c)
    (version index : Nat) :
    b.buildFrom version index ss = (c.root version).mapError (⟨none, ·⟩) := by
  induction ss generalizing b index with
  | nil =>
    obtain rfl := Except.ok.inj hsteps
    rfl
  | cons s ss ih =>
    obtain ⟨d, hd, hrest⟩ := exists_step_of_steps_cons hsteps
    rw [buildFrom, hd]
    exact ih hrest (index + 1)

/-- If a step fails, the outcome names a step. -/
theorem buildFrom_of_failing_step {b : Builder} {ss : List Step} {e : BuildError}
    (hsteps : b.steps ss = .error e) (version index : Nat) :
    ∃ i, b.buildFrom version index ss = .error ⟨some i, e⟩ := by
  induction ss generalizing b index with
  | nil => cases hsteps
  | cons s ss ih =>
    rw [steps] at hsteps
    rw [buildFrom]
    cases hd : b.step s with
    | error f =>
      rw [hd] at hsteps
      obtain rfl := Except.error.inj hsteps
      exact ⟨index, rfl⟩
    | ok d =>
      rw [hd] at hsteps
      exact ih hsteps (index + 1)

/-- A tree is handed over if the steps lead to a builder with it as the only element. -/
theorem build_eq_ok_iff_steps {version : Nat} {ss : List Step} {n : Node} :
    build version ss = .ok n ↔
      ∃ c, empty.steps ss = .ok c ∧ ∃ t, c.elements = [t] ∧ t.plant? version = some n := by
  rw [build]
  cases hsteps : empty.steps ss with
  | error e =>
    obtain ⟨i, hfailed⟩ := buildFrom_of_failing_step hsteps version 0
    simp [hfailed]
  | ok c =>
    rw [buildFrom_of_steps hsteps]
    simp only [Except.ok.injEq, exists_eq_left', ← root_eq_ok_iff]
    cases c.root version <;> simp [Except.mapError]

/-- The steps write one sketch, with starts before and behind it that nothing ends. -/
structure Writes (ss : List Step) (before : List Kind) (s : Sketch) (behind : List Kind) :
    Prop where
  steps : Step.plainAll ss = before.map .start ++ s.written ++ behind.map .start
  kinds : ∀ k ∈ before ++ behind, k.isToken = false
  fits : s.Fits

/-- The builder after the steps that write one sketch. -/
theorem Writes.exists_builder {ss : List Step} {before behind : List Kind} {s : Sketch}
    (hwrites : Writes ss before s behind) :
    ∃ c, empty.steps ss = .ok c ∧ c.elements = [s.tree] ∧
      c.pending.length = (before ++ behind).length := by
  obtain ⟨hbefore, hbehind⟩ := List.forall_mem_append.mp hwrites.kinds
  obtain ⟨b, hb, hempty, hcount⟩ := exists_of_starts empty hbefore
  obtain ⟨c, hc, helements, hcount'⟩ := exists_of_starts (b.push [s.tree]) hbehind
  refine ⟨c, ?_, ?_, ?_⟩
  · rw [← steps_plainAll, hwrites.steps, steps_append, steps_append, hb]
    show (b.steps s.written >>= fun b => b.steps (behind.map .start)) = _
    rw [steps_written b hwrites.fits]
    exact hc
  · rw [helements, elements_push, hempty]
    rfl
  · rw [hcount', pending_push, hcount, List.length_append]
    exact congrArg (· + behind.length) (Nat.zero_add _)

/-- Steps that leave one element write one sketch. -/
theorem exists_writes {ss : List Step} {c : Builder} {t : Tree} (hsteps : empty.steps ss = .ok c)
    (hone : c.elements = [t]) :
    ∃ before s behind, Writes ss before s behind ∧ s.tree = t := by
  rw [← steps_plainAll] at hsteps
  have hempty : (⟨[], []⟩ : Draft).Fits :=
    ⟨fun _ hl => absurd hl List.not_mem_nil, fun _ hc => absurd hc List.not_mem_nil⟩
  obtain ⟨d, hd, rfl, hplain⟩ :=
    Draft.exists_of_steps hempty (fun _ hs => Step.isPlain_of_mem_plainAll hs) hsteps
  rw [Draft.elements_builder, List.map_eq_singleton_iff] at hone
  obtain ⟨s, hs, rfl⟩ := hone
  obtain ⟨before, behind, hkinds, hshape⟩ := Draft.steps_of_sketches_eq_singleton hs
  refine ⟨before, s, behind, ⟨?_, ?_, ?_⟩, rfl⟩
  · exact hplain.symm.trans hshape
  · intro k hk
    exact Draft.isToken_of_mem_kinds hd (hkinds ▸ hk)
  · exact Draft.fits_of_mem_sketches hd (hs ▸ List.mem_singleton_self s)

/-- A tree is handed over exactly if the steps write it, with starts before and behind it that
nothing ends. -/
theorem build_eq_ok_iff {version : Nat} {ss : List Step} {n : Node} :
    build version ss = .ok n ↔
      ∃ before s behind, Writes ss before s behind ∧ s.tree.plant? version = some n := by
  rw [build_eq_ok_iff_steps]
  constructor
  · intro h
    obtain ⟨c, hsteps, t, hone, hplant⟩ := h
    obtain ⟨before, s, behind, hwrites, rfl⟩ := exists_writes hsteps hone
    exact ⟨before, s, behind, hwrites, hplant⟩
  · intro h
    obtain ⟨before, s, behind, hwrites, hplant⟩ := h
    obtain ⟨c, hsteps, hone, -⟩ := hwrites.exists_builder
    exact ⟨c, hsteps, s.tree, hone, hplant⟩

/-- The nodes that were started around the written sketch are the ones left open. -/
theorem Writes.opened_eq {ss : List Step} {before behind : List Kind} {s : Sketch}
    (hwrites : Writes ss before s behind) :
    opened 0 (Step.plainAll ss) = some (before ++ behind).length := by
  obtain ⟨c, hsteps, -, hcount⟩ := hwrites.exists_builder
  rw [← steps_plainAll] at hsteps
  rw [← hcount]
  exact opened_of_steps (fun _ hs => Step.isPlain_of_mem_plainAll hs) hsteps

theorem Writes.addedTokens_eq {ss : List Step} {before behind : List Kind} {s : Sketch}
    (hwrites : Writes ss before s behind) : addedTokens ss = s.tree.leafSpellings := by
  have hstarts : ∀ ks : List Kind, (ks.map Step.start).filterMap Step.token? = [] := fun ks => by
    rw [List.filterMap_map, List.filterMap_eq_nil_iff]
    exact fun _ _ => rfl
  rw [addedTokens, hwrites.steps, List.filterMap_append, List.filterMap_append, hstarts, hstarts,
    Sketch.filterMap_token?_written, List.nil_append, List.append_nil]

/-! ## The contract -/

/-- The contract of a build. -/
structure HonoursContract (version : Nat) (ss : List Step) : Prop where
  /-- Steps that are not balanced are an error. -/
  refused : ¬ Balanced ss → ∃ f, build version ss = .error f
  /-- A tree comes of balanced steps and has every token that was added. -/
  complete : ∀ n, build version ss = .ok n →
    Balanced ss ∧ n.leaves.map Token.spelling = addedTokens ss

/-- A tree that is handed over has every token that was added. -/
theorem map_spelling_leaves_of_build {version : Nat} {ss : List Step} {n : Node}
    (hbuild : build version ss = .ok n) : n.leaves.map Token.spelling = addedTokens ss := by
  obtain ⟨before, s, behind, hwrites, hplant⟩ := build_eq_ok_iff.mp hbuild
  rw [Node.map_spelling_leaves, Node.tree_of_plant? hplant, hwrites.addedTokens_eq]

theorem honoursContract_iff {version : Nat} {ss : List Step} :
    HonoursContract version ss ↔ ∀ n, build version ss = .ok n → Balanced ss := by
  constructor
  · intro h n hn
    exact (h.complete n hn).1
  · intro h
    refine ⟨?_, fun n hn => ⟨h n hn, map_spelling_leaves_of_build hn⟩⟩
    intro hunbalanced
    cases hbuild : build version ss with
    | error f => exact ⟨f, rfl⟩
    | ok n => exact absurd (h n hbuild) hunbalanced

/-- An end without an open node is refused by some step. -/
theorem exists_error_of_opened_eq_none {ss : List Step}
    (hopened : opened 0 (Step.plainAll ss) = none) (version : Nat) :
    ∃ i e, build version ss = .error ⟨some i, e⟩ := by
  cases hsteps : empty.steps ss with
  | ok c =>
    rw [← steps_plainAll] at hsteps
    have hcount := opened_of_steps (fun _ hs => Step.isPlain_of_mem_plainAll hs) hsteps
    cases hopened.symm.trans hcount
  | error e =>
    obtain ⟨i, hfailed⟩ := buildFrom_of_failing_step hsteps version 0
    exact ⟨i, e, hfailed⟩

theorem Writes.balanced_iff {ss : List Step} {before behind : List Kind} {s : Sketch}
    (hwrites : Writes ss before s behind) : Balanced ss ↔ before ++ behind = [] := by
  rw [Balanced, hwrites.opened_eq, Option.some.injEq, List.length_eq_zero_iff]

/-- What comes of a list of steps, whether they are balanced or not.

A tree is handed over exactly if the steps write it, with starts before and behind it that nothing
ends.  It has every token that was added.  If a step ends a node and none is open, some step fails.
The contract is broken exactly if one node is written and another one is left open before or behind
it. -/
theorem build_under_contract (version : Nat) (ss : List Step) :
    (∀ n, build version ss = .ok n ↔
      ∃ before s behind, Writes ss before s behind ∧ s.tree.plant? version = some n) ∧
    (∀ n, build version ss = .ok n → n.leaves.map Token.spelling = addedTokens ss) ∧
    (opened 0 (Step.plainAll ss) = none → ∃ i e, build version ss = .error ⟨some i, e⟩) ∧
    (¬ HonoursContract version ss ↔
      ∃ before s behind, Writes ss before s behind ∧ s.isToken = false ∧
        before ++ behind ≠ []) := by
  refine ⟨fun n => build_eq_ok_iff, fun n => map_spelling_leaves_of_build,
    fun hopened => exists_error_of_opened_eq_none hopened version, ?_⟩
  rw [honoursContract_iff]
  constructor
  · intro hbroken
    obtain ⟨n, hn⟩ := Classical.not_forall.mp hbroken
    obtain ⟨hbuild, hunbalanced⟩ := Classical.not_imp.mp hn
    obtain ⟨before, s, behind, hwrites, hplant⟩ := build_eq_ok_iff.mp hbuild
    refine ⟨before, s, behind, hwrites, ?_, fun hnone => ?_⟩
    · cases s with
      | token k text => cases hplant
      | node k cs => rfl
    · exact hunbalanced (hwrites.balanced_iff.mpr hnone)
  · rintro ⟨before, s, behind, hwrites, hnode, hopen⟩ hkept
    cases s with
    | token k text => cases hnode
    | node k cs =>
      have hplant : (Sketch.node k cs).tree.plant? version =
          some ⟨version, k.stored, Sketch.trees cs, []⟩ := rfl
      have hbuild := build_eq_ok_iff.mpr ⟨before, _, behind, hwrites, hplant⟩
      exact hopen (hwrites.balanced_iff.mp (hkept _ hbuild))

/-- Of two blocks that are started one is ended.  The other one is left open, and the inner block is
handed over as the root. -/
theorem build_forgets_open_node :
    let ss := [Step.start .block, .start .block, .finish]
    build 0 ss = .ok ⟨0, .block, [], []⟩ ∧ ¬ Balanced ss ∧ ¬ HonoursContract 0 ss := by
  intro ss
  have hbuild : build 0 ss = .ok ⟨0, .block, [], []⟩ := rfl
  have hunbalanced : ¬ Balanced ss := by
    rw [Balanced]
    decide
  refine ⟨hbuild, hunbalanced, ?_⟩
  intro hkept
  exact hunbalanced (hkept.complete _ hbuild).1

end LiveEdit.Builder
