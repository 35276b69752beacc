import LiveEdit.Syntax.Sketch

/-!
# What a sketch builds

A sketch goes through the builder one step at a time.  The builder stops at the first part of the
sketch, in source order, whose kind does not fit: a node with the kind of a token, or a token with
the kind of a node.  If there is none, one tree has been added and nothing else has changed.

* `Sketch.parts` lists a sketch and the sketches in it; `Sketch.misfit?` is the first that does not
  fit.
* `step_sketch` is the outcome of the step that adds a sketch, for every state of the builder.
* `build_eq` is the outcome of a whole build.
* `sketch_tree`: the tree of a sketch reads back as the sketch, unless a node carries the end
  marker, which is stored as an error.
-/

namespace LiveEdit

namespace Sketch

/-! ## Parts and kinds -/

mutual

/-- A sketch and the sketches in it, in source order. -/
def parts : Sketch → List Sketch
  | node k cs => node k cs :: partsAll cs
  | token k s => [token k s]

/-- The parts of neighbouring sketches. -/
def partsAll : List Sketch → List Sketch
  | [] => []
  | c :: cs => c.parts ++ partsAll cs

end

/-- The kind of a sketch. -/
def kind : Sketch → Kind
  | node k _ => k
  | token k _ => k

/-- Whether a sketch is a single token. -/
def isToken : Sketch → Bool
  | node .. => false
  | token .. => true

/-- A node carries the kind of a node and a token the kind of a token. -/
def fits (s : Sketch) : Bool := s.kind.isToken == s.isToken

/-- Why the builder refuses a sketch that does not fit. -/
def misfit : Sketch → BuildError
  | node k _ => .tokenKind k
  | token k _ => .nodeKind k

/-- The first part that does not fit. -/
def misfit? (s : Sketch) : Option Sketch := s.parts.find? fun p => !p.fits

/-- Every part of a sketch fits. -/
def Fits (s : Sketch) : Prop := ∀ p ∈ s.parts, p.fits = true

theorem partsAll_eq (cs : List Sketch) : partsAll cs = cs.flatMap parts := by
  induction cs with
  | nil => rfl
  | cons c cs ih => rw [partsAll, ih, List.flatMap_cons]

theorem misfit?_eq_none_iff {s : Sketch} : s.misfit? = none ↔ s.Fits := by
  rw [misfit?, List.find?_eq_none, Fits]
  simp only [Bool.not_eq_true', Bool.not_eq_false]

theorem fits_node_eq (k : Kind) (cs : List Sketch) : (node k cs).fits = !k.isToken := by
  rw [fits, kind, isToken]
  cases k.isToken <;> rfl

theorem fits_token_eq (k : Kind) (text : String) : (token k text).fits = k.isToken := by
  rw [fits, kind, isToken]
  cases k.isToken <;> rfl

theorem fits_node_iff {k : Kind} {cs : List Sketch} :
    (node k cs).Fits ↔ k.isToken = false ∧ ∀ c ∈ cs, c.Fits := by
  rw [Fits, parts, List.forall_mem_cons, fits_node_eq, Bool.not_eq_true', partsAll_eq]
  simp only [List.mem_flatMap, Fits]
  exact and_congr_right fun _ => ⟨fun h c hc p hp => h p ⟨c, hc, hp⟩,
    fun h p ⟨c, hc, hp⟩ => h c hc p hp⟩

theorem fits_token_iff {k : Kind} {text : String} :
    (token k text).Fits ↔ k.isToken = true := by
  rw [Fits, parts, List.forall_mem_singleton, fits_token_eq]

/-! ## The tree of a sketch -/

mutual

/-- The tree that a sketch describes. -/
def tree : Sketch → Tree
  | node k cs => .node k.stored (trees cs)
  | token k s => .token k s

/-- The trees that neighbouring sketches describe. -/
def trees : List Sketch → List Tree
  | [] => []
  | c :: cs => c.tree :: trees cs

end

theorem trees_eq (cs : List Sketch) : trees cs = cs.map tree := by
  induction cs with
  | nil => rfl
  | cons c cs ih => rw [trees, ih, List.map_cons]

theorem tree_node (k : Kind) (cs : List Sketch) :
    (node k cs).tree = .node k.stored (cs.map tree) := by
  rw [tree, trees_eq]

end Sketch

/-! ## One sketch added to a builder -/

namespace Builder

/-- A builder with finished trees added. -/
def push (b : Builder) (ts : List Tree) : Builder := { b with finished := b.finished ++ ts }

@[simp] theorem push_nil (b : Builder) : b.push [] = b := by
  rw [push, List.append_nil]

@[simp] theorem push_push (b : Builder) (ts us : List Tree) :
    (b.push ts).push us = b.push (ts ++ us) := by
  rw [push, push, push, List.append_assoc]

/-- The outcome of adding a sketch, given the first part that does not fit. -/
def added (b : Builder) (misfit : Option Sketch) (ts : List Tree) : Except BuildError Builder :=
  match misfit with
  | some p => .error p.misfit
  | none => .ok (b.push ts)

theorem added_push (b : Builder) (misfit : Option Sketch) (ts us : List Tree) :
    (b.push ts).added misfit us = b.added misfit (ts ++ us) := by
  cases misfit with
  | none => rw [added, added, push_push]
  | some p => rfl

/-- Neighbouring sketches are added one after the other, up to the first part that does not fit. -/
theorem steps_sketches {cs : List Sketch}
    (hstep : ∀ c ∈ cs, ∀ b : Builder, b.step c.step = b.added c.misfit? [c.tree]) (b : Builder) :
    b.steps (Sketch.steps cs) =
      b.added ((Sketch.partsAll cs).find? fun p => !p.fits) (Sketch.trees cs) := by
  induction cs generalizing b with
  | nil => simp [Sketch.steps, steps, Sketch.partsAll, Sketch.trees, added]
  | cons c cs ih =>
    have hrest := ih (fun d hd => hstep d (List.mem_cons_of_mem c hd))
    rw [Sketch.steps, steps, hstep c List.mem_cons_self, Sketch.partsAll, List.find?_append,
      ← Sketch.misfit?]
    cases c.misfit? with
    | some p => rfl
    | none =>
      show (b.push [c.tree]).steps (Sketch.steps cs) = _
      rw [hrest, added_push, Option.none_or, Sketch.trees, List.singleton_append]

/-- A sketch adds its tree to the builder, unless a part of it does not fit. -/
theorem step_sketch (b : Builder) (s : Sketch) : b.step s.step = b.added s.misfit? [s.tree] := by
  induction s using Sketch.induction generalizing b with
  | token k text =>
    rw [Sketch.step, step, token, Sketch.misfit?, Sketch.parts]
    cases hk : k.isToken with
    | true =>
      have hfits : (Sketch.token k text).fits = true := (Sketch.fits_token_eq k text).trans hk
      simp [hfits, added, push, Sketch.tree]
    | false =>
      have hfits : (Sketch.token k text).fits = false := (Sketch.fits_token_eq k text).trans hk
      simp [hfits, added, Sketch.misfit]
  | node k cs ih =>
    rw [Sketch.step, step, start, Sketch.misfit?, Sketch.parts, List.find?_cons]
    cases hk : k.isToken with
    | true =>
      have hfits : (Sketch.node k cs).fits = false := by rw [Sketch.fits_node_eq, hk]; rfl
      rw [hfits]
      rfl
    | false =>
      have hfits : (Sketch.node k cs).fits = true := by rw [Sketch.fits_node_eq, hk]; rfl
      rw [hfits]
      show ((⟨(k, b.finished) :: b.pending, []⟩ : Builder).steps (Sketch.steps cs) >>= finish) = _
      rw [steps_sketches ih]
      cases (Sketch.partsAll cs).find? fun p => !p.fits with
      | some p => rfl
      | none => rfl

end Builder

namespace Sketch

/-! ## A whole build -/

/-- A sketch is built as the root that its tree gives, unless a part of it does not fit or the
sketch is a token. -/
theorem build_eq (version : Nat) (s : Sketch) :
    s.build version =
      match s.misfit?, s.tree.plant? version with
      | some p, _ => .error p.misfit
      | none, some n => .ok n
      | none, none => .error .tokenRoot := by
  rw [build, Builder.step_sketch]
  cases s.misfit? with
  | some p => rfl
  | none =>
    show Builder.root (Builder.empty.push [s.tree]) version = _
    rw [Builder.root, Builder.elements]
    cases hplant : s.tree.plant? version <;> simp [Builder.push, Builder.empty, hplant]

/-- A sketch all of whose parts fit is built, if it is a node. -/
theorem build_of_fits {s : Sketch} (hfits : s.Fits) {version : Nat} {n : Node}
    (hplant : s.tree.plant? version = some n) : s.build version = .ok n := by
  rw [build_eq, misfit?_eq_none_iff.mpr hfits, hplant]

/-- What is built is what the sketch describes. -/
theorem build_eq_ok_iff {s : Sketch} {version : Nat} {n : Node} :
    s.build version = .ok n ↔ s.Fits ∧ s.tree.plant? version = some n := by
  constructor
  · intro h
    rw [build_eq] at h
    cases hm : s.misfit? with
    | some p => rw [hm] at h; cases h
    | none =>
      rw [hm] at h
      refine ⟨misfit?_eq_none_iff.mp hm, ?_⟩
      cases hplant : s.tree.plant? version with
      | none => rw [hplant] at h; cases h
      | some m => rw [hplant] at h; rw [Except.ok.inj h]
  · intro h
    exact build_of_fits h.1 h.2

end Sketch

/-! ## Back to the sketch -/

namespace Tree

theorem sketches_eq (ts : List Tree) : sketches ts = ts.map sketch := by
  induction ts with
  | nil => rfl
  | cons t ts ih => rw [sketches, ih, List.map_cons]

end Tree

namespace Sketch

/-- A sketch without end markers describes the tree that reads back as the sketch.  The kinds of its
nodes come back from the numbers under which the tree holds them. -/
theorem sketch_tree {s : Sketch} (hmarker : ∀ p ∈ s.parts, p.kind ≠ .endMarker) :
    s.tree.sketch = s := by
  induction s using Sketch.induction with
  | token k text => rfl
  | node k cs ih =>
    rw [parts, List.forall_mem_cons, partsAll_eq] at hmarker
    obtain ⟨hk, hbelow⟩ := hmarker
    have hchild : ∀ c ∈ cs, (Tree.sketch ∘ tree) c = id c := fun c hc =>
      ih c hc fun p hp => hbelow p (List.mem_flatMap.mpr ⟨c, hc, hp⟩)
    have hchildren : (cs.map tree).map Tree.sketch = cs := by
      rw [List.map_map, List.map_congr_left hchild, List.map_id]
    have hstored : k.stored = k := Kind.stored_of_ne hk
    rw [tree_node, Tree.sketch, Tree.sketches_eq, hchildren, hstored]

end Sketch

end LiveEdit
