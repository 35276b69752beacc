import LiveEdit.Syntax.Builder

/-!
# Sketches

A `Sketch` describes a tree by kinds and texts and has not been checked: a node of a sketch may
carry the kind of a token, or a token the kind of a node.  `Sketch.build` runs it through the
builder, which refuses such a sketch, and `Tree.sketch` reads a tree back.
-/

namespace LiveEdit

/-- The description of a tree. -/
inductive Sketch where
  | node (kind : Kind) (children : List Sketch)
  | token (kind : Kind) (text : String)
  deriving Inhabited

namespace Sketch

/-- Induction in which the children of a node satisfy the claim. -/
theorem induction {P : Sketch → Prop} (node : ∀ k cs, (∀ c ∈ cs, P c) → P (node k cs))
    (token : ∀ k s, P (token k s)) : ∀ s, P s :=
  @Sketch.rec P (fun cs => ∀ c ∈ cs, P c) node token
    (fun _ h => nomatch h)
    (fun _ _ hc hcs _ h => by
      cases h with
      | head => exact hc
      | tail _ h => exact hcs _ h)

mutual

/-- The step that adds a sketch to a builder. -/
def step : Sketch → Builder.Step
  | node k cs => .node k (steps cs)
  | token k s => .token k s

/-- The steps that add neighbouring sketches. -/
def steps : List Sketch → List Builder.Step
  | [] => []
  | c :: cs => c.step :: steps cs

end

/-- The document root that a sketch describes. -/
def build (version : Nat) (s : Sketch) : Except BuildError Node := do
  (← Builder.empty.step s.step).root version

end Sketch

namespace Tree

mutual

/-- The description of a tree. -/
def sketch : Tree → Sketch
  | token k s => .token k s
  | node k cs => .node k (sketches cs)

/-- The descriptions of neighbouring trees. -/
def sketches : List Tree → List Sketch
  | [] => []
  | c :: cs => c.sketch :: sketches cs

end

end Tree

end LiveEdit
