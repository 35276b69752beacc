import LiveEdit.Proofs.BodyShape
import LiveEdit.Proofs.Nesting

/-!
# Bodies of closures

A closure finds its body below itself, and a node asks the closure above it whether it is the body.
The two ways are inverse to each other for nodes that cover text.

* `isClosureBody_of_closureBody?`: the body of a closure is recognised.
* `exists_closureBody?_of_isClosureBody`: what is recognised and covers text is the body of a
  closure.
* `eq_of_closureBody?_eq`: a node is the body of one closure at most.
* `exists_shape_eq`: for any other node it does not matter whether closure bodies are accepted.
* `closureBodies_recognised` puts these together.
-/

namespace LiveEdit.Node

/-! ## Down and up -/

/-- The body of a closure is recognised as one. -/
theorem isClosureBody_of_closureBody? {c n : Node} (hclosure : c.isClosure = true)
    (hn : c.closureBody? = some n) : n.isClosureBody = true := by
  obtain ⟨d, b, -, hd, hb, rfl⟩ := exists_ownBody?_of_closureBody? hclosure hn
  exact Declaration.isClosureBody_of_ownBody? hb hd

/-- A node that covers text and is recognised is the body of a closure above it.  The body of that
closure is the same as the node, and among nodes with text that makes it the node. -/
theorem exists_closureBody?_of_isClosureBody {n : Node} (hwidth : n.width ≠ 0)
    (hbody : n.isClosureBody = true) :
    ∃ c ∈ n.ancestors, c.isClosure = true ∧ c.closureBody? = some n := by
  obtain ⟨c, b, hcn, hclosure, hb, hroot, hsame⟩ := exists_closure_of_isClosureBody hbody
  obtain rfl : n = b := eq_of_same hroot.symm hsame.symm hwidth
  exact ⟨c, hcn, hclosure, hb⟩

/-- A node is the body of one closure at most. -/
theorem eq_of_closureBody?_eq {c c' n : Node} (hclosure : c.isClosure = true)
    (hclosure' : c'.isClosure = true) (hn : c.closureBody? = some n)
    (hn' : c'.closureBody? = some n) : c = c' := by
  obtain ⟨d, b, rfl, -, hb, hbn⟩ := exists_ownBody?_of_closureBody? hclosure hn
  obtain ⟨d', b', rfl, -, hb', hbn'⟩ := exists_ownBody?_of_closureBody? hclosure' hn'
  rw [Declaration.eq_of_body_node_eq hb hb' (hbn.trans hbn'.symm)]

/-! ## Shapes -/

theorem shape_false_of_isClosureBody {n : Node} (hbody : n.isClosureBody = true) :
    n.shape false = .error (.closureBodyNotAllowed n.kind n.range) := by
  rw [shape, if_pos hbody]
  rfl

/-- No place outside closures is that of a closure body. -/
theorem openShape?_ne_closureBody (n : Node) : n.openShape? ≠ some .closureBody := by
  have hinitializer : n.initializerShape? ≠ some .closureBody := by
    intro h
    obtain ⟨p, -, hp⟩ := Option.bind_eq_some_iff.mp h
    split at hp
    · cases hp
    · split at hp <;> cases hp
    · cases hp
  intro h
  rw [openShape?] at h
  split at h
  · cases h
  · rcases Option.or_eq_some_iff.mp h with hexpression | ⟨-, hunit⟩
    · split at hexpression
      · exact hinitializer hexpression
      · cases hexpression
    · split at hunit <;> cases hunit

/-- For a node that is no closure body there is one answer, whether closure bodies are accepted or
not, and the answer does not speak of closure bodies. -/
theorem exists_shape_eq {n : Node} (hbody : n.isClosureBody = false) :
    ∃ answer, (∀ allowClosure, n.shape allowClosure = answer) ∧ answer ≠ .ok .closureBody ∧
      ∀ k r, answer ≠ .error (.closureBodyNotAllowed k r) := by
  cases hopen : n.openShape? with
  | none =>
    exact ⟨.error (.notABody n.kind n.range), shape_of_openShape?_eq_none hbody hopen, nofun, nofun⟩
  | some s =>
    refine ⟨.ok s, shape_of_openShape? hbody hopen, ?_, nofun⟩
    intro hs
    rw [Except.ok.inj hs] at hopen
    exact openShape?_ne_closureBody n hopen

/-- A node that covers text is recognised as the body of a closure if and only if it is the body of
some closure of the tree.  No node is the body of two closures.

A node that is recognised, with text or without, has the shape of a closure body where closure
bodies are accepted, and is refused as a closure body where they are not.  For any other node it
makes no difference whether they are accepted, and the answer does not speak of closure bodies. -/
theorem closureBodies_recognised (n : Node) :
    (n.width ≠ 0 →
      (n.isClosureBody = true ↔
        ∃ c ∈ n.root.preorder, c.isClosure = true ∧ c.closureBody? = some n)) ∧
    (∀ c c' : Node, c.isClosure = true → c.closureBody? = some n →
      c'.isClosure = true → c'.closureBody? = some n → c = c') ∧
    (n.isClosureBody = true →
      n.shape true = .ok .closureBody ∧
        n.shape false = .error (.closureBodyNotAllowed n.kind n.range)) ∧
    (n.isClosureBody = false →
      n.shape true = n.shape false ∧
        ∀ allowClosure, n.shape allowClosure ≠ .ok .closureBody ∧
          ∀ k r, n.shape allowClosure ≠ .error (.closureBodyNotAllowed k r)) := by
  refine ⟨?_, ?_, ?_, ?_⟩
  · intro hwidth
    constructor
    · intro hbody
      obtain ⟨c, hcn, hclosure, hn⟩ := exists_closureBody?_of_isClosureBody hwidth hbody
      exact ⟨c, mem_preorder_root hcn, hclosure, hn⟩
    · intro h
      rcases h with ⟨c, -, hclosure, hn⟩
      exact isClosureBody_of_closureBody? hclosure hn
  · intro c c' hclosure hn hclosure' hn'
    exact eq_of_closureBody?_eq hclosure hclosure' hn hn'
  · intro hbody
    exact ⟨shape_of_isClosureBody hbody (kind_of_isClosureBody hbody),
      shape_false_of_isClosureBody hbody⟩
  · intro hbody
    obtain ⟨answer, hshape, hclosure, hrefused⟩ := exists_shape_eq hbody
    refine ⟨by rw [hshape, hshape], ?_⟩
    intro allowClosure
    rw [hshape]
    exact ⟨hclosure, hrefused⟩

/-- The name after the arrow of a local function is the body of the local function. -/
theorem closureBodies_recognised_after_arrow :
    let name := Tree.node .identifierName [.token .identifier "x"]
    let arrow := Tree.node .arrowExpressionClause [.token .fatArrow "=>", name]
    let root : Node := ⟨0, .block, [.node .localFunctionStatement [arrow]], []⟩
    let function : Node := ⟨0, .localFunctionStatement, [arrow], [⟨.block, [], []⟩]⟩
    let x : Node := ⟨0, .identifierName, [.token .identifier "x"],
      [⟨.arrowExpressionClause, [.token .fatArrow "=>"], []⟩, ⟨.localFunctionStatement, [], []⟩,
        ⟨.block, [], []⟩]⟩
    x.width ≠ 0 ∧ x.root = root ∧ function ∈ root.preorder ∧ function.closureBody? = some x ∧
      x.isClosureBody = true ∧ x.shape true = .ok .closureBody ∧
      x.shape false = .error (.closureBodyNotAllowed .identifierName ⟨2, 3⟩) := by
  intro name arrow root function x
  have hwidth : x.width ≠ 0 := by decide
  have hfunction : function ∈ root.preorder := by decide +kernel
  have hn : function.closureBody? = some x := rfl
  obtain ⟨hrecognised, -, hshape, -⟩ := closureBodies_recognised x
  have hbody : x.isClosureBody = true :=
    (hrecognised hwidth).mpr ⟨function, hfunction, rfl, hn⟩
  exact ⟨hwidth, rfl, hfunction, hn, hbody, hshape hbody⟩

/-- Without text, a node can be recognised that is the body of nothing: the second of two empty
blocks in one place. -/
example :
    let root : Node := ⟨0, .anonymousMethodExpression, [.node .block [], .node .block []], []⟩
    root.closureBody?.map path = some [0] ∧
      root.childNodes.map (fun n => (n.path, n.isClosureBody)) = [([0], true), ([1], true)] := by
  decide +kernel

end LiveEdit.Node
