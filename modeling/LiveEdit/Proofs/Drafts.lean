import LiveEdit.Proofs.Lossless

/-!
# Builders as drafts

What steps do to a builder is seen best if they are written as starts, ends and tokens, and if the
builder is written with sketches: the finished nodes and tokens are sketches, and the open nodes
stand around them.

* `Step.plain` writes a step as starts, ends and tokens, and running these is running the step
  (`steps_plainAll`).  `Sketch.written` is this for the step that adds a sketch.
* `step_cases` says what one plain step does.
* A `Draft` is the state of a builder written with sketches.  `Draft.exists_of_step` and
  `Draft.exists_of_steps`: plain steps lead from draft to draft, and a draft knows the steps that
  led to it.
* `Draft.steps_of_sketches_eq_singleton`: the steps that lead to a draft of one sketch write the
  sketch, with starts before it and behind it.
-/

namespace LiveEdit

namespace Builder

/-! ## Plain steps -/

namespace Step

mutual

/-- A step as starts, ends and tokens.  A token without a spelling stays, because no token takes its
place. -/
def plain : Step → List Step
  | start k => [start k]
  | finish => [finish]
  | token k text => [token k text]
  | punct k =>
    match k.fixedText? with
    | some text => [token k text]
    | none => [punct k]
  | whitespace text => [token .whitespace text]
  | node k ss => start k :: plainAll ss ++ [finish]

/-- Steps as starts, ends and tokens. -/
def plainAll : List Step → List Step
  | [] => []
  | s :: ss => s.plain ++ plainAll ss

end

/-- Induction in which the steps inside a node satisfy the claim. -/
theorem induction {P : Step → Prop} (start : ∀ k, P (start k)) (finish : P finish)
    (token : ∀ k text, P (token k text)) (punct : ∀ k, P (punct k))
    (whitespace : ∀ text, P (whitespace text)) (node : ∀ k ss, (∀ s ∈ ss, P s) → P (node k ss)) :
    ∀ s, P s :=
  @Step.rec P (fun ss => ∀ s ∈ ss, P s) start finish token punct whitespace node
    (fun _ h => nomatch h)
    (fun _ _ hs hss _ h => by
      cases h with
      | head => exact hs
      | tail _ h => exact hss _ h)

/-- The token that a plain step adds, as its kind and its text. -/
def token? : Step → Option (Kind × String)
  | token k text => some (k, text)
  | _ => none

theorem plainAll_eq (ss : List Step) : plainAll ss = ss.flatMap plain := by
  induction ss with
  | nil => rfl
  | cons s ss ih => rw [plainAll, ih, List.flatMap_cons]

/-- A start, an end, a token, or a token without a spelling. -/
def IsPlain : Step → Prop
  | start _ | finish | token .. => True
  | punct k => k.fixedText? = none
  | whitespace _ | node .. => False

theorem isPlain_of_mem_plain {s t : Step} (ht : t ∈ s.plain) : t.IsPlain := by
  induction s using Step.induction generalizing t with
  | start | finish | token =>
    rw [plain, List.mem_singleton] at ht
    subst ht
    trivial
  | whitespace text =>
    rw [plain, List.mem_singleton] at ht
    subst ht
    trivial
  | punct k =>
    rw [plain] at ht
    cases hk : k.fixedText? with
    | some text =>
      rw [hk, List.mem_singleton] at ht
      subst ht
      trivial
    | none =>
      rw [hk, List.mem_singleton] at ht
      subst ht
      exact hk
  | node k ss ih =>
    rw [plain, List.cons_append, List.mem_cons, List.mem_append, List.mem_singleton,
      plainAll_eq, List.mem_flatMap] at ht
    rcases ht with rfl | ⟨s, hs, hts⟩ | rfl
    · trivial
    · exact ih s hs hts
    · trivial

theorem isPlain_of_mem_plainAll {ss : List Step} {t : Step} (ht : t ∈ plainAll ss) :
    t.IsPlain := by
  rw [plainAll_eq, List.mem_flatMap] at ht
  obtain ⟨s, -, hts⟩ := ht
  exact isPlain_of_mem_plain hts

end Step

theorem steps_append (b : Builder) (ss ts : List Step) :
    b.steps (ss ++ ts) = b.steps ss >>= (·.steps ts) := by
  induction ss generalizing b with
  | nil => rfl
  | cons s ss ih =>
    rw [List.cons_append, steps, steps]
    cases b.step s with
    | error e => rfl
    | ok c => exact ih c

theorem steps_singleton (b : Builder) (s : Step) : b.steps [s] = b.step s := by
  rw [steps]
  cases b.step s <;> rfl

theorem steps_plainAll_of_plain {ss : List Step}
    (hplain : ∀ s ∈ ss, ∀ b : Builder, b.steps s.plain = b.step s) (b : Builder) :
    b.steps (Step.plainAll ss) = b.steps ss := by
  induction ss generalizing b with
  | nil => rfl
  | cons s ss ih =>
    have hrest := ih fun t ht => hplain t (List.mem_cons_of_mem s ht)
    rw [Step.plainAll, steps_append, hplain s List.mem_cons_self, steps]
    cases b.step s with
    | error e => rfl
    | ok c => exact hrest c

/-- Running the plain steps of a step is running the step. -/
theorem steps_plain (b : Builder) (s : Step) : b.steps s.plain = b.step s := by
  induction s using Step.induction generalizing b with
  | start | finish | token | whitespace => exact steps_singleton b _
  | punct k =>
    rw [Step.plain, step, punct]
    cases hk : k.fixedText? with
    | some text => exact steps_singleton b _
    | none =>
      show b.steps [.punct k] = .error (.noSpelling k)
      rw [steps_singleton, step, punct, hk]
  | node k ss ih =>
    rw [Step.plain, List.cons_append, steps, step, step]
    cases b.start k with
    | error e => rfl
    | ok c =>
      show c.steps (Step.plainAll ss ++ [.finish]) = c.steps ss >>= finish
      rw [steps_append, steps_plainAll_of_plain ih]
      cases c.steps ss with
      | error e => rfl
      | ok d => exact steps_singleton d .finish

/-- Running plain steps is running the steps. -/
theorem steps_plainAll (b : Builder) (ss : List Step) : b.steps (Step.plainAll ss) = b.steps ss :=
  steps_plainAll_of_plain (fun s _ c => steps_plain c s) b

/-- What one plain step does when it is not refused. -/
theorem step_cases {b c : Builder} {s : Step} (hplain : s.IsPlain) (hstep : b.step s = .ok c) :
    (∃ k, s = .start k ∧ k.isToken = false ∧ c = ⟨(k, b.finished) :: b.pending, []⟩) ∨
    (∃ k before outer, s = .finish ∧ b.pending = (k, before) :: outer ∧
      c = ⟨outer, before ++ [.node k.stored b.finished]⟩) ∨
    ∃ k text, s = .token k text ∧ k.isToken = true ∧ c = b.push [.token k text] := by
  cases s with
  | start k =>
    rw [step, start] at hstep
    cases hk : k.isToken with
    | true => rw [hk] at hstep; cases hstep
    | false => rw [hk] at hstep; exact .inl ⟨k, rfl, hk, (Except.ok.inj hstep).symm⟩
  | finish =>
    obtain ⟨pending, finished⟩ := b
    cases pending with
    | nil => cases hstep
    | cons p outer =>
      obtain ⟨k, before⟩ := p
      exact .inr (.inl ⟨k, before, outer, rfl, rfl, (Except.ok.inj hstep).symm⟩)
  | token k text =>
    rw [step, token] at hstep
    cases hk : k.isToken with
    | true => rw [hk] at hstep; exact .inr (.inr ⟨k, text, rfl, hk, (Except.ok.inj hstep).symm⟩)
    | false => rw [hk] at hstep; cases hstep
  | punct k =>
    rw [step, punct, show k.fixedText? = none from hplain] at hstep
    cases hstep
  | whitespace text => exact hplain.elim
  | node k ss => exact hplain.elim

theorem exists_step_of_steps_cons {b c : Builder} {s : Step} {ss : List Step}
    (hsteps : b.steps (s :: ss) = .ok c) : ∃ d, b.step s = .ok d ∧ d.steps ss = .ok c := by
  rw [steps] at hsteps
  cases hd : b.step s with
  | error e => rw [hd] at hsteps; cases hsteps
  | ok d => rw [hd] at hsteps; exact ⟨d, rfl, hsteps⟩

end Builder

/-! ## Written sketches -/

namespace Sketch

/-- The plain steps that write a sketch. -/
def written (s : Sketch) : List Builder.Step := s.step.plain

theorem plainAll_steps (cs : List Sketch) :
    Builder.Step.plainAll (steps cs) = cs.flatMap written := by
  induction cs with
  | nil => rfl
  | cons c cs ih => rw [steps, Builder.Step.plainAll, ih, List.flatMap_cons, written]

theorem written_token (k : Kind) (text : String) : (token k text).written = [.token k text] := rfl

theorem written_node (k : Kind) (cs : List Sketch) :
    (node k cs).written = .start k :: cs.flatMap written ++ [.finish] := by
  rw [written, step, Builder.Step.plain, plainAll_steps]

/-- The tokens that are added by writing a sketch are those of its tree. -/
theorem filterMap_token?_written (s : Sketch) :
    s.written.filterMap Builder.Step.token? = s.tree.leafSpellings := by
  induction s using Sketch.induction with
  | token k text => rfl
  | node k cs ih =>
    rw [written_node, tree_node, Tree.leafSpellings, Tree.leafSpellingsAll_eq, List.cons_append,
      List.filterMap_cons_none rfl, List.filterMap_append, List.filterMap_cons_none rfl,
      List.filterMap_nil, List.append_nil, List.filterMap_flatMap, List.flatMap_map,
      List.flatMap_def, List.flatMap_def, List.map_congr_left ih]

end Sketch

namespace Builder

/-- Writing a sketch that fits adds its tree. -/
theorem steps_written (b : Builder) {s : Sketch} (hfits : s.Fits) :
    b.steps s.written = .ok (b.push [s.tree]) := by
  rw [Sketch.written, steps_plain, step_sketch, Sketch.misfit?_eq_none_iff.mpr hfits]
  rfl

@[simp] theorem elements_push (b : Builder) (ts : List Tree) :
    (b.push ts).elements = b.elements ++ ts := by
  rw [elements, elements, push, List.append_assoc]

@[simp] theorem pending_push (b : Builder) (ts : List Tree) : (b.push ts).pending = b.pending :=
  rfl

/-- Nodes that are started and not ended change nothing but their number. -/
theorem exists_of_starts (b : Builder) {ks : List Kind} (hkinds : ∀ k ∈ ks, k.isToken = false) :
    ∃ c, b.steps (ks.map .start) = .ok c ∧ c.elements = b.elements ∧
      c.pending.length = b.pending.length + ks.length := by
  induction ks generalizing b with
  | nil => exact ⟨b, rfl, rfl, rfl⟩
  | cons k ks ih =>
    obtain ⟨hk, hks⟩ := List.forall_mem_cons.mp hkinds
    obtain ⟨c, hc, helements, hcount⟩ := ih ⟨(k, b.finished) :: b.pending, []⟩ hks
    refine ⟨c, ?_, ?_, ?_⟩
    · rw [List.map_cons, steps, step, start, hk]
      exact hc
    · rw [helements]
      simp [elements]
    · rw [hcount, List.length_cons, List.length_cons]
      omega

/-! ## Drafts -/

/-- The state of a builder written with sketches: the open nodes, innermost first, each with the
sketches that stood before it, and the sketches in the innermost one. -/
structure Draft where
  levels : List (Kind × List Sketch)
  last : List Sketch

namespace Draft

/-- The plain steps that lead up to the innermost open node. -/
def leading : List (Kind × List Sketch) → List Step
  | [] => []
  | (k, cs) :: outer => leading outer ++ cs.flatMap Sketch.written ++ [.start k]

/-- The plain steps of a draft. -/
def steps (d : Draft) : List Step := leading d.levels ++ d.last.flatMap Sketch.written

/-- The builder that the steps of a draft lead to. -/
def builder (d : Draft) : Builder :=
  ⟨d.levels.map fun l => (l.1, Sketch.trees l.2), Sketch.trees d.last⟩

/-- The sketches in the nodes around the innermost one. -/
def outerSketches (levels : List (Kind × List Sketch)) : List Sketch :=
  levels.reverse.flatMap (·.2)

/-- The kinds of the open nodes, outermost first. -/
def kinds (levels : List (Kind × List Sketch)) : List Kind := levels.reverse.map (·.1)

/-- The open nodes have kinds of nodes, and every sketch fits. -/
structure Fits (d : Draft) : Prop where
  levels : ∀ l ∈ d.levels, l.1.isToken = false ∧ ∀ c ∈ l.2, c.Fits
  last : ∀ c ∈ d.last, c.Fits

theorem outerSketches_cons (k : Kind) (cs : List Sketch) (outer : List (Kind × List Sketch)) :
    outerSketches ((k, cs) :: outer) = outerSketches outer ++ cs := by
  simp [outerSketches]

theorem kinds_cons (k : Kind) (cs : List Sketch) (outer : List (Kind × List Sketch)) :
    kinds ((k, cs) :: outer) = kinds outer ++ [k] := by
  simp [kinds]

/-- The finished elements are the trees of the sketches. -/
theorem elements_builder (d : Draft) :
    d.builder.elements = (outerSketches d.levels ++ d.last).map Sketch.tree := by
  simp [builder, elements, outerSketches, Sketch.trees_eq, ← List.map_reverse, List.map_flatMap,
    List.flatMap_map]

/-- One plain step leads from a draft to a draft. -/
theorem exists_of_step {d : Draft} {b : Builder} {s : Step} (hd : d.Fits) (hplain : s.IsPlain)
    (hstep : d.builder.step s = .ok b) :
    ∃ e : Draft, e.Fits ∧ e.builder = b ∧ e.steps = d.steps ++ [s] := by
  obtain ⟨levels, last⟩ := d
  rcases step_cases hplain hstep with ⟨k, rfl, hk, rfl⟩ | ⟨k, before, outer, rfl, hpending, rfl⟩ |
    ⟨k, text, rfl, hk, rfl⟩
  · refine ⟨⟨(k, last) :: levels, []⟩, ⟨?_, ?_⟩, rfl, ?_⟩
    · exact List.forall_mem_cons.mpr ⟨⟨hk, hd.last⟩, hd.levels⟩
    · intro c hc
      cases hc
    · rw [steps, steps, leading, List.flatMap_nil, List.append_nil]
  · cases levels with
    | nil => cases hpending
    | cons l levels =>
      obtain ⟨k', cs⟩ := l
      obtain ⟨⟨rfl, rfl⟩, rfl⟩ := hpending
      obtain ⟨⟨hk, hcs⟩, hlevels⟩ := List.forall_mem_cons.mp hd.levels
      refine ⟨⟨levels, cs ++ [.node k' last]⟩, ⟨hlevels, ?_⟩, ?_, ?_⟩
      · intro c hc
        rcases List.mem_append.mp hc with hc | hc
        · exact hcs c hc
        · rw [List.mem_singleton.mp hc]
          exact Sketch.fits_node_iff.mpr ⟨hk, hd.last⟩
      · simp [builder, Sketch.trees_eq, Sketch.tree_node]
      · simp [steps, leading, Sketch.written_node]
  · refine ⟨⟨levels, last ++ [.token k text]⟩, ⟨hd.levels, ?_⟩, ?_, ?_⟩
    · intro c hc
      rcases List.mem_append.mp hc with hc | hc
      · exact hd.last c hc
      · rw [List.mem_singleton.mp hc]
        exact Sketch.fits_token_iff.mpr hk
    · simp [builder, push, Sketch.trees_eq, Sketch.tree]
    · simp [steps, Sketch.written_token]

/-- Plain steps lead from a draft to a draft, whose steps they complete. -/
theorem exists_of_steps {d : Draft} {b : Builder} {ss : List Step} (hd : d.Fits)
    (hplain : ∀ s ∈ ss, s.IsPlain) (hsteps : d.builder.steps ss = .ok b) :
    ∃ e : Draft, e.Fits ∧ e.builder = b ∧ e.steps = d.steps ++ ss := by
  induction ss generalizing d with
  | nil => exact ⟨d, hd, Except.ok.inj hsteps, (List.append_nil _).symm⟩
  | cons s ss ih =>
    obtain ⟨hs, hss⟩ := List.forall_mem_cons.mp hplain
    obtain ⟨c, hc, hrest⟩ := exists_step_of_steps_cons hsteps
    obtain ⟨d', hd', rfl, hsteps'⟩ := exists_of_step hd hs hc
    obtain ⟨e, he, hbuilder, hsteps''⟩ := ih hd' hss hrest
    exact ⟨e, he, hbuilder, by rw [hsteps'', hsteps', List.append_assoc, List.singleton_append]⟩

/-- Around no sketch there are starts only. -/
theorem leading_of_outerSketches_eq_nil {levels : List (Kind × List Sketch)}
    (hnone : outerSketches levels = []) : leading levels = (kinds levels).map .start := by
  induction levels with
  | nil => rfl
  | cons l outer ih =>
    obtain ⟨k, cs⟩ := l
    rw [outerSketches_cons, List.append_eq_nil_iff] at hnone
    obtain ⟨houter, rfl⟩ := hnone
    rw [leading, ih houter, kinds_cons, List.map_append, List.flatMap_nil, List.append_nil]
    rfl

/-- Around one sketch there are starts before it and starts behind it. -/
theorem leading_of_outerSketches_eq_singleton {levels : List (Kind × List Sketch)} {s : Sketch}
    (hone : outerSketches levels = [s]) :
    ∃ before behind, kinds levels = before ++ behind ∧
      leading levels = before.map .start ++ s.written ++ behind.map .start := by
  induction levels with
  | nil => cases hone
  | cons l outer ih =>
    obtain ⟨k, cs⟩ := l
    rw [outerSketches_cons, List.append_eq_singleton_iff] at hone
    rw [kinds_cons, leading]
    rcases hone with ⟨houter, rfl⟩ | ⟨houter, rfl⟩
    · refine ⟨kinds outer, [k], rfl, ?_⟩
      rw [leading_of_outerSketches_eq_nil houter, List.flatMap_singleton]
      rfl
    · obtain ⟨before, behind, hkinds, hleading⟩ := ih houter
      refine ⟨before, behind ++ [k], by rw [hkinds, List.append_assoc], ?_⟩
      rw [hleading, List.flatMap_nil, List.append_nil, List.map_append, List.append_assoc]
      rfl

/-- A draft of one sketch is the sketch, with starts before it and behind it. -/
theorem steps_of_sketches_eq_singleton {d : Draft} {s : Sketch}
    (hone : outerSketches d.levels ++ d.last = [s]) :
    ∃ before behind, kinds d.levels = before ++ behind ∧
      d.steps = before.map .start ++ s.written ++ behind.map .start := by
  rw [steps]
  rcases List.append_eq_singleton_iff.mp hone with ⟨houter, hlast⟩ | ⟨houter, hlast⟩
  · refine ⟨kinds d.levels, [], (List.append_nil _).symm, ?_⟩
    rw [leading_of_outerSketches_eq_nil houter, hlast, List.flatMap_singleton, List.map_nil,
      List.append_nil]
  · obtain ⟨before, behind, hkinds, hleading⟩ := leading_of_outerSketches_eq_singleton houter
    exact ⟨before, behind, hkinds, by rw [hleading, hlast, List.flatMap_nil, List.append_nil]⟩

theorem isToken_of_mem_kinds {d : Draft} (hd : d.Fits) {k : Kind} (hk : k ∈ kinds d.levels) :
    k.isToken = false := by
  obtain ⟨l, hl, rfl⟩ := List.mem_map.mp hk
  exact (hd.levels l (List.mem_reverse.mp hl)).1

theorem fits_of_mem_sketches {d : Draft} (hd : d.Fits) {s : Sketch}
    (hs : s ∈ outerSketches d.levels ++ d.last) : s.Fits := by
  rcases List.mem_append.mp hs with hs | hs
  · obtain ⟨l, hl, hsl⟩ := List.mem_flatMap.mp hs
    exact (hd.levels l (List.mem_reverse.mp hl)).2 s hsl
  · exact hd.last s hs

end Draft

end Builder

end LiveEdit
