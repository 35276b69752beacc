import LiveEdit.Proofs.Bodies
import LiveEdit.Proofs.Constructs

/-!
# Reading constructs back

A layout turns the parts of a construct into a tree, and the parts of a declaration are found by
asking for the first child of a kind.  The two fit: nothing in front of a part is mistaken for it.

* `foundIn_blockOrArrow?` and `foundIn_blockOrExpression?` find the code behind children that are
  none.
* `isNodeOf_of_mem_modifiers`, `isNodeOf_of_mem_signature` and `isNodeOf_of_mem_parts` say which
  nodes stand around the code and carry it.
* `exists_readsBack`: the tree of every construct is built and answers as it should.
-/

namespace LiveEdit

/-! ## Kinds of code -/

namespace Kind

/-- Code is a block or an expression. -/
def IsCode (k : Kind) : Prop := k = .block ∨ k.isExpression = true

theorem IsCode.isToken {k : Kind} (hk : k.IsCode) : k.isToken = false := by
  rcases hk with rfl | hk
  · rfl
  · revert hk
    cases k <;> decide

theorem IsCode.stored {k : Kind} (hk : k.IsCode) : k.stored = k := by
  apply stored_of_ne
  intro hmarker
  rw [hmarker] at hk
  rcases hk with h | h
  · cases h
  · cases h

theorem ne_block_of_isExpression {k : Kind} (hk : k.isExpression = true) : k ≠ .block := by
  intro h
  rw [h] at hk
  cases hk

/-- No expression is taken for modifiers or parameters. -/
theorem isExpression_apart {k : Kind} (hk : k.isExpression = true) :
    (k == .modifiers) = false ∧ k.isParameterList = false ∧ (k == .parameter) = false := by
  revert hk
  cases k <;> decide

end Kind

namespace Sketch

/-! ## Finding the code -/

theorem exists_node_of_fits {s : Sketch} (hfits : s.Fits) (hcode : s.kind.IsCode) :
    ∃ cs, s = node s.kind cs := by
  cases s with
  | node k cs => exact ⟨cs, rfl⟩
  | token k text => cases (fits_token_iff.mp hfits).symm.trans hcode.isToken

/-- A sketch of code that fits is built. -/
theorem exists_build {s : Sketch} (hfits : s.Fits) (hcode : s.kind.IsCode) (version : Nat) :
    ∃ m, s.build version = .ok m ∧ s.tree = m.tree := by
  obtain ⟨cs, hs⟩ := exists_node_of_fits hfits hcode
  rw [hs] at hfits ⊢
  exact ⟨⟨version, s.kind.stored, trees cs, []⟩, build_of_fits hfits rfl, rfl⟩

theorem isNodeOf_tree {s : Sketch} (hfits : s.Fits) (hcode : s.kind.IsCode)
    (accepts : Kind → Bool) : s.tree.isNodeOf accepts = accepts s.kind := by
  obtain ⟨cs, hs⟩ := exists_node_of_fits hfits hcode
  rw [hs, tree, hcode.stored]
  rfl

/-- Code of an accepted kind is found behind children that are not accepted. -/
theorem exists_child?_of_code {s : Sketch} (hfits : s.Fits) (hcode : s.kind.IsCode)
    (accepts : Kind → Bool) (haccepts : accepts s.kind = true) {n : Node}
    {before after : List Tree} (hchildren : n.children = before ++ s.tree :: after)
    (hbefore : ∀ t ∈ before, t.isNodeOf accepts = false) (version : Nat) :
    ∃ c m, n.child? accepts = some c ∧ n.nodeAt? [before.length] = some c ∧
      s.build version = .ok m ∧ c.tree = m.tree := by
  obtain ⟨c, hc, hindex, htree⟩ := Node.exists_child?_of_split hchildren hbefore
    ((isNodeOf_tree hfits hcode accepts).trans haccepts)
  obtain ⟨m, hm, hmtree⟩ := exists_build hfits hcode version
  refine ⟨c, m, hc, ?_, hm, htree.trans hmtree⟩
  rw [Node.nodeAt?_singleton, hindex]

/-- The body of a member is found behind children that are no code. -/
theorem foundIn_blockOrArrow? {b : MemberBody} (hb : (Code.member b).Buildable) {n : Node}
    {before : List Tree} (hchildren : n.children = before ++ b.parts.map tree)
    (hblock : ∀ t ∈ before, t.isNodeOf (· == .block) = false)
    (harrow : ∀ t ∈ before, t.isNodeOf (· == .arrowExpressionClause) = false) (version : Nat) :
    (Code.member b).FoundIn version n before.length n.blockOrArrow? := by
  cases b with
  | block b =>
    obtain ⟨hfits, hkind⟩ := hb
    obtain ⟨c, m, hc, hpath, hm, htree⟩ := exists_child?_of_code hfits (.inl hkind) (· == .block)
      (beq_iff_eq.mpr hkind) hchildren hblock version
    have hblock? : n.block? = some c := hc
    refine ⟨⟨.block, c⟩, m, ?_, rfl, hpath, hm, htree⟩
    rw [Node.blockOrArrow?, hblock?]
    rfl
  | arrow e =>
    obtain ⟨hfits, hkind⟩ := hb
    have hnone : n.block? = none := by
      refine Node.child?_eq_none hchildren hblock ?_
      intro t ht
      simp only [MemberBody.parts, List.map_cons, List.map_nil, List.mem_cons, List.not_mem_nil,
        or_false] at ht
      rcases ht with rfl | rfl <;> rfl
    obtain ⟨a, ha, hindex, hatree⟩ := Node.exists_child?_of_split hchildren harrow rfl
    have hclause : a.children = [(punct .fatArrow).tree, blank.tree] ++ [e.tree] :=
      (Tree.node.inj hatree).2
    have htokens : ∀ t ∈ [(punct .fatArrow).tree, blank.tree],
        t.isNodeOf Kind.isExpression = false := by
      intro t ht
      simp only [List.mem_cons, List.not_mem_nil, or_false] at ht
      rcases ht with rfl | rfl <;> rfl
    obtain ⟨c, m, hc, hpath, hm, htree⟩ :=
      exists_child?_of_code hfits (.inr hkind) Kind.isExpression hkind hclause htokens version
    have harrow? : n.arrow? = some a := ha
    have hexpression? : a.expression? = some c := hc
    refine ⟨⟨.expression, c⟩, m, ?_, rfl, ?_, hm, htree⟩
    · rw [Node.blockOrArrow?, hnone, Node.arrowExpression?, harrow?, Option.bind_some,
        hexpression?]
      rfl
    · rw [Node.nodeAt?, hindex]
      exact hpath
  | absent =>
    have hsemicolon : ∀ accepts : Kind → Bool, ∀ t ∈ MemberBody.absent.parts.map tree,
        t.isNodeOf accepts = false := by
      intro accepts t ht
      rw [List.mem_singleton.mp ht]
      rfl
    have hblock? : n.block? = none := Node.child?_eq_none hchildren hblock (hsemicolon _)
    have harrow? : n.arrow? = none := Node.child?_eq_none hchildren harrow (hsemicolon _)
    show n.blockOrArrow? = none
    rw [Node.blockOrArrow?, hblock?, Node.arrowExpression?, harrow?]
    rfl

/-- The body of a lambda is found behind children that are no code. -/
theorem foundIn_blockOrExpression? {b : Sketch} (hb : (Code.closure b).Buildable) {n : Node}
    {before : List Tree} (hchildren : n.children = before ++ [b.tree])
    (hblock : ∀ t ∈ before, t.isNodeOf (· == .block) = false)
    (hexpression : ∀ t ∈ before, t.isNodeOf Kind.isExpression = false) (version : Nat) :
    (Code.closure b).FoundIn version n before.length n.blockOrExpression? := by
  obtain ⟨hfits, hkind⟩ := hb
  rw [Code.FoundIn, Code.body?]
  rcases hkind with hkind | hkind
  · obtain ⟨c, m, hc, hpath, hm, htree⟩ := exists_child?_of_code hfits (.inl hkind) (· == .block)
      (beq_iff_eq.mpr hkind) hchildren hblock version
    have hblock? : n.block? = some c := hc
    refine ⟨⟨.block, c⟩, m, ?_, (if_pos hkind).symm, hpath, hm, htree⟩
    rw [Node.blockOrExpression?, hblock?]
    rfl
  · have hnot := Kind.ne_block_of_isExpression hkind
    have hnone : n.block? = none := by
      refine Node.child?_eq_none hchildren hblock ?_
      intro t ht
      rw [List.mem_singleton.mp ht, isNodeOf_tree hfits (.inr hkind)]
      exact beq_eq_false_iff_ne.mpr hnot
    obtain ⟨c, m, hc, hpath, hm, htree⟩ := exists_child?_of_code hfits (.inr hkind)
      Kind.isExpression hkind hchildren hexpression version
    have hexpression? : n.expression? = some c := hc
    refine ⟨⟨.expression, c⟩, m, ?_, (if_neg hnot).symm, hpath, hm, htree⟩
    rw [Node.blockOrExpression?, hnone, hexpression?]
    rfl

/-! ## What stands around the code -/

/-- The nodes before the code are modifiers, types and parameters. -/
theorem isNodeOf_of_mem_modifiers {accepts : Kind → Bool} (hmodifiers : accepts .modifiers = false)
    {mods : List Kind} {t : Tree} (ht : t ∈ (modifiers mods).map tree) :
    t.isNodeOf accepts = false := by
  rw [modifiers] at ht
  split at ht
  · cases ht
  · rw [List.mem_singleton.mp ht, tree]
    exact hmodifiers

theorem Construct.isNodeOf_of_mem_signature {accepts : Kind → Bool}
    (htype : accepts .typeRef = false) (hlist : accepts .parameterList = false)
    (hparameter : accepts .parameter = false) {c : Construct} {t : Tree}
    (ht : t ∈ c.signature.map tree) : t.isNodeOf accepts = false := by
  revert t
  cases c <;>
    simp [signature, typeRef, params, paramsBetween, ident, blank, punct, tree, Tree.isNodeOf,
      Kind.stored, htype, hlist, hparameter]

theorem Construct.isNodeOf_of_mem_head {accepts : Kind → Bool}
    (hframe : ∀ k ∈ [Kind.modifiers, .typeRef, .parameterList, .parameter], accepts k = false)
    {c : Construct} {t : Tree} (ht : t ∈ c.head.map tree) : t.isNodeOf accepts = false := by
  rw [head, List.map_append, List.mem_append] at ht
  rcases ht with ht | ht
  · exact isNodeOf_of_mem_modifiers (hframe _ (by decide)) ht
  · exact isNodeOf_of_mem_signature (hframe _ (by decide)) (hframe _ (by decide))
      (hframe _ (by decide)) ht

/-- The nodes that carry code are blocks, arrow clauses and expressions. -/
theorem Code.isNodeOf_of_mem_parts {accepts : Kind → Bool} (hblock : accepts .block = false)
    (harrow : accepts .arrowExpressionClause = false)
    (hexpression : ∀ k : Kind, k.isExpression = true → accepts k = false) {c : Code}
    (hc : c.Buildable) {t : Tree} (ht : t ∈ c.parts.map tree) : t.isNodeOf accepts = false := by
  have hcode : ∀ s : Sketch, s.Fits → s.kind.IsCode → s.tree.isNodeOf accepts = false := by
    intro s hfits hkind
    rw [isNodeOf_tree hfits hkind]
    rcases hkind with hkind | hkind
    · rwa [hkind]
    · exact hexpression _ hkind
  rcases c with (b | e | _) | b
  · rw [List.mem_singleton.mp ht]
    exact hcode b hc.1 (.inl hc.2)
  · simp only [parts, MemberBody.parts, List.map_cons, List.map_nil, List.mem_cons,
      List.not_mem_nil, or_false] at ht
    rcases ht with rfl | rfl
    · exact harrow
    · rfl
  · rw [List.mem_singleton.mp ht]
    rfl
  · rw [List.mem_singleton.mp ht]
    exact hcode b hc.1 hc.2

/-- No identifier stands directly beside the code. -/
theorem Code.find?_identifier_parts {c : Code} (hc : c.Buildable) :
    ((c.parts.map tree).filterMap Tree.spelling?).find? (fun t => t.1 == .identifier) = none := by
  have hnode : ∀ s : Sketch, s.Fits → s.kind.IsCode →
      [s.tree].filterMap Tree.spelling? = [] := by
    intro s hfits hkind
    obtain ⟨cs, hs⟩ := exists_node_of_fits hfits hkind
    rw [hs]
    rfl
  rcases c with (b | e | _) | b
  · show ([b.tree].filterMap Tree.spelling?).find? _ = none
    rw [hnode b hc.1 (.inl hc.2)]
    rfl
  · rfl
  · rfl
  · show ([b.tree].filterMap Tree.spelling?).find? _ = none
    rw [hnode b hc.1 hc.2]
    rfl

/-! ## The answers one by one -/

namespace Construct

theorem kind_eq {c : Construct} (hc : c.Buildable) :
    c.kind.stored = c.kind ∧ Declaration.Form.ofKind? c.kind = some c.form := by
  cases c with
  | accessor k body =>
    have haccessor : ∀ k : Kind, k.isAccessor = true →
        k.stored = k ∧ Declaration.Form.ofKind? k = some .accessor := by
      intro k
      cases k <;> decide
    exact haccessor k (hc.accessor k body rfl)
  | _ => exact ⟨rfl, rfl⟩

theorem tree_sketch {c : Construct} (hc : c.Buildable) :
    c.sketch.tree =
      .node c.kind ((modifiers c.mods).map tree ++ c.signature.map tree ++
        c.code.parts.map tree) := by
  rw [sketch_eq, tree_node, (kind_eq hc).1, List.map_append, head, List.map_append]

/-- The keywords of a node for modifiers are the modifiers. -/
theorem keywordKinds_modifiers {mods : List Kind} (hmods : ∀ k ∈ mods, k.isTrivia = false) :
    (node .modifiers (keywords mods)).tree.keywordKinds = mods := by
  rw [tree_node, Tree.keywordKinds]
  induction mods with
  | nil => rfl
  | cons k mods ih =>
    obtain ⟨hk, hrest⟩ := List.forall_mem_cons.mp hmods
    have hkeywords : keywords (k :: mods) = punct k :: blank :: keywords mods := rfl
    rw [hkeywords]
    simp only [List.map_cons, punct, blank, tree, List.filterMap_cons, Tree.spelling?]
    rw [List.filter_cons_of_pos (by simp [hk]), List.filter_cons_of_neg (by decide), List.map_cons,
      ih hrest]

/-- A choice that takes no comma is a choice among what stands between the commas. -/
theorem filter_commaSeparated {p : Tree → Bool} (hcomma : p (punct .comma).tree = false)
    (ss : List Sketch) :
    ((commaSeparated ss).map tree).filter p = (ss.map tree).filter p := by
  rw [commaSeparated]
  induction ss with
  | nil => rfl
  | cons a ss ih =>
    cases ss with
    | nil => rfl
    | cons b ss =>
      rw [List.intersperse_cons_cons, List.map_cons, List.map_cons, List.filter_cons,
        List.filter_cons_of_neg (by simp [hcomma]), ih, ← List.filter_cons, ← List.map_cons]

/-- A list of parameters has the parameters. -/
theorem parameterNames_params (names : List String) :
    (params names).tree.parameterNames = names.map some := by
  let parameter (n : String) := node .parameter [typeRef "int", blank, ident n]
  have hall : ((names.map parameter).map tree).filter (Tree.isNodeOf (· == .parameter)) =
      (names.map parameter).map tree := by
    rw [List.filter_eq_self]
    intro t ht
    obtain ⟨s, hs, rfl⟩ := List.mem_map.mp ht
    obtain ⟨n, -, rfl⟩ := List.mem_map.mp hs
    rfl
  rw [params, paramsBetween, tree_node, Tree.parameterNames, List.map_append, List.map_append,
    List.filter_append, List.filter_append, filter_commaSeparated rfl, hall]
  show ([] ++ (names.map parameter).map tree ++ []).map Tree.identifier? = names.map some
  rw [List.nil_append, List.append_nil, List.map_map, List.map_map]
  exact List.map_congr_left fun n _ => rfl

/-- A search among the children of a construct that passes over modifiers and code is a search in
the signature. -/
theorem find?_children {accepts : Kind → Bool} (hmodifiers : accepts .modifiers = false)
    (hblock : accepts .block = false) (harrow : accepts .arrowExpressionClause = false)
    (hexpression : ∀ k : Kind, k.isExpression = true → accepts k = false) {c : Construct}
    (hc : c.Buildable) :
    ((modifiers c.mods).map tree ++ c.signature.map tree ++ c.code.parts.map tree).find?
        (Tree.isNodeOf accepts) =
      (c.signature.map tree).find? (Tree.isNodeOf accepts) := by
  have hbefore : ((modifiers c.mods).map tree).find? (Tree.isNodeOf accepts) = none :=
    Tree.find?_isNodeOf_eq_none fun _ ht => isNodeOf_of_mem_modifiers hmodifiers ht
  have hafter : (c.code.parts.map tree).find? (Tree.isNodeOf accepts) = none :=
    Tree.find?_isNodeOf_eq_none fun _ ht =>
      Code.isNodeOf_of_mem_parts hblock harrow hexpression hc.code ht
  rw [List.find?_append, List.find?_append, hbefore, hafter, Option.none_or, Option.or_none]

/-! ## The declaration -/

section

variable {c : Construct} (hc : c.Buildable) {n : Node} (htree : n.tree = c.sketch.tree)

include hc htree

theorem children_eq : n.children =
    (modifiers c.mods).map tree ++ c.signature.map tree ++ c.code.parts.map tree :=
  (Tree.node.inj (htree.trans (tree_sketch hc))).2

theorem modifiers_eq : (n.modifiers?.map fun m => m.keywords.map Token.kind) =
    if c.mods = [] then none else some c.mods := by
  have hfirst : n.modifiers?.map Node.tree =
      ((modifiers c.mods).map tree).find? (Tree.isNodeOf (· == .modifiers)) := by
    have hsignature : (c.signature.map tree).find? (Tree.isNodeOf (· == .modifiers)) = none :=
      Tree.find?_isNodeOf_eq_none fun _ ht => isNodeOf_of_mem_signature rfl rfl rfl ht
    have hparts : (c.code.parts.map tree).find? (Tree.isNodeOf (· == .modifiers)) = none :=
      Tree.find?_isNodeOf_eq_none fun _ ht =>
        Code.isNodeOf_of_mem_parts rfl rfl (fun k hk => (Kind.isExpression_apart hk).1) hc.code ht
    rw [Node.modifiers?, Node.childOf?, Node.map_tree_child?, children_eq hc htree,
      List.find?_append, List.find?_append, hsignature, hparts, Option.or_none, Option.or_none]
  have hkeywords : (n.modifiers?.map fun m => m.keywords.map Token.kind) =
      (n.modifiers?.map Node.tree).map Tree.keywordKinds := by
    rw [Option.map_map]
    exact Option.map_congr fun m _ => m.map_kind_keywords
  rw [hkeywords, hfirst, modifiers]
  by_cases hmods : c.mods = []
  · rw [hmods]
    rfl
  · rw [if_neg hmods, if_neg (by simpa using hmods)]
    exact congrArg some (keywordKinds_modifiers fun k hk => (hc.mods k hk).2)

theorem name_eq : n.identifier?.map Token.text = c.name? := by
  have hmodifiers : ((modifiers c.mods).map tree).filterMap Tree.spelling? = [] := by
    rw [modifiers]
    split <;> rfl
  have hsignature : (((c.signature.map tree).filterMap Tree.spelling?).find?
      fun t => t.1 == .identifier).map (·.2) = c.name? := by
    cases c with
    | accessor k body => cases k <;> rfl
    | _ => rfl
  rw [Node.map_text_identifier?, Node.tree, children_eq hc htree, Tree.identifier?,
    List.filterMap_append, List.filterMap_append, hmodifiers, List.nil_append, List.find?_append,
    Code.find?_identifier_parts hc.code, Option.or_none, hsignature]

theorem parameters_eq :
    n.parameterList?.map Node.parameterNames = c.parameters?.map (·.map some) := by
  have hlist : n.parameterList?.map Node.tree =
      c.parameters?.map fun names => (params names).tree := by
    rw [Node.parameterList?, Node.map_tree_child?, children_eq hc htree,
      find?_children rfl rfl rfl (fun k hk => (Kind.isExpression_apart hk).2.1) hc]
    cases c <;> rfl
  have hnames : n.parameterList?.map Node.parameterNames =
      (n.parameterList?.map Node.tree).map Tree.parameterNames := by
    rw [Option.map_map]
    exact Option.map_congr fun m _ => m.parameterNames_eq
  rw [hnames, hlist, Option.map_map]
  exact Option.map_congr fun names _ => parameterNames_params names

theorem bare_eq : n.parameterNames = c.bareParameters.map some := by
  have hmodifiers :
      ((modifiers c.mods).map tree).filter (Tree.isNodeOf (· == .parameter)) = [] :=
    Tree.filter_isNodeOf_eq_nil fun _ ht => isNodeOf_of_mem_modifiers rfl ht
  have hparts : (c.code.parts.map tree).filter (Tree.isNodeOf (· == .parameter)) = [] :=
    Tree.filter_isNodeOf_eq_nil fun _ ht =>
      Code.isNodeOf_of_mem_parts rfl rfl (fun k hk => (Kind.isExpression_apart hk).2.2) hc.code ht
  have hsignature : ((c.signature.map tree).filter (Tree.isNodeOf (· == .parameter))).map
      Tree.identifier? = c.bareParameters.map some := by
    cases c <;> rfl
  rw [Node.parameterNames_eq, Node.tree, children_eq hc htree, Tree.parameterNames,
    List.filter_append, List.filter_append, hmodifiers, hparts, List.nil_append, List.append_nil,
    hsignature]

/-- The body of the declaration is the code. -/
theorem foundIn_ownBody? (version : Nat) {d : Declaration} (hd : d.node = n)
    (hform : d.form = c.form) : c.code.FoundIn version n c.head.length d.ownBody? := by
  have hchildren : n.children = c.head.map tree ++ c.code.parts.map tree := by
    rw [children_eq hc htree, head, List.map_append]
  have hblock : ∀ t ∈ c.head.map tree, t.isNodeOf (· == .block) = false := fun t ht =>
    isNodeOf_of_mem_head (by decide) ht
  have harrow : ∀ t ∈ c.head.map tree, t.isNodeOf (· == .arrowExpressionClause) = false :=
    fun t ht => isNodeOf_of_mem_head (by decide) ht
  have hexpression : ∀ t ∈ c.head.map tree, t.isNodeOf Kind.isExpression = false := fun t ht =>
    isNodeOf_of_mem_head (by decide) ht
  have hlength : (c.head.map tree).length = c.head.length := List.length_map _
  subst hd
  cases c with
  | method | constructorOf | destructor | operator | conversionOperator | accessor
  | localFunction =>
    rw [Declaration.ownBody?, hform, ← hlength]
    exact foundIn_blockOrArrow? hc.code hchildren hblock harrow version
  | lambda | simpleLambda | anonymousMethod =>
    rw [Declaration.ownBody?, hform, ← hlength]
    exact foundIn_blockOrExpression? hc.code hchildren hblock hexpression version

end

/-- A construct is laid out as a tree that is built and cast to the declaration of its form.  The
modifiers, the name and the names of the parameters are read back, and the body of the declaration
is what the sketch of the code builds. -/
theorem exists_readsBack (c : Construct) (hc : c.Buildable) (version : Nat) :
    ∃ n d, c.sketch.build version = .ok n ∧ n.declaration? = some d ∧ c.ReadsBack version d := by
  let n : Node := ⟨version, c.kind.stored, trees (c.head ++ c.code.parts), []⟩
  have htree : n.tree = c.sketch.tree := by
    rw [sketch_eq, tree]
    rfl
  have hbuild : c.sketch.build version = .ok n := by
    apply build_of_fits (fits_sketch hc)
    rw [sketch_eq, tree]
    rfl
  have hform : Declaration.Form.ofKind? n.kind = some c.form := by
    show Declaration.Form.ofKind? c.kind.stored = some c.form
    rw [(kind_eq hc).1, (kind_eq hc).2]
  let d : Declaration := ⟨n, c.form, hform⟩
  refine ⟨n, d, hbuild, Node.declaration?_node d, ?_⟩
  exact {
    form := rfl
    modifiers := modifiers_eq hc htree
    name := name_eq hc htree
    parameters := parameters_eq hc htree
    bare := bare_eq hc htree
    body := ⟨d.ownBody?, by rw [Declaration.body_eq], foundIn_ownBody? hc htree version rfl rfl⟩ }

/-- An `async` method with two parameters and an expression after its arrow that is itself a lambda
with a block. -/
theorem exists_readsBack_of_arrow_method :
    let inner := Sketch.lambda [] (block [])
    let c := method [.publicKw, .asyncKw] "Run" ["x", "y"] (.arrow inner)
    ∃ n d b, c.sketch.build 0 = .ok n ∧ n.declaration? = some d ∧ d.form = .method ∧
      (n.modifiers?.map fun m => m.keywords.map Token.kind) = some [.publicKw, .asyncKw] ∧
      n.identifier?.map Token.text = some "Run" ∧
      n.parameterList?.map Node.parameterNames = some [some "x", some "y"] ∧
      d.body.value = .ok (some b) ∧ b.form = .expression ∧ n.nodeAt? [5, 2] = some b.node ∧
      b.node.kind = .parenthesizedLambdaExpression := by
  intro inner c
  have hc : c.Buildable := by
    refine ⟨by decide, ?_, ?_, rfl⟩
    · intro k body h
      change method _ _ _ _ = accessor k body at h
      cases h
    · exact build_eq_ok_iff.mp (show inner.build 0 = .ok _ from rfl) |>.1
  obtain ⟨n, d, hbuild, hd, hreads⟩ := exists_readsBack c hc 0
  obtain ⟨found, hfound, b, m, rfl, hform, hpath, hm, htree⟩ := hreads.body
  obtain rfl := Node.node_of_declaration? hd
  have hkind : m.kind = .parenthesizedLambdaExpression := by
    obtain rfl := Except.ok.inj ((show inner.build 0 = .ok _ from rfl).symm.trans hm)
    rfl
  refine ⟨d.node, d, b, hbuild, hd, hreads.form, hreads.modifiers, hreads.name,
    hreads.parameters, hfound, hform, hpath, ?_⟩
  rw [← hkind]
  exact (Tree.node.inj htree).1

end Construct

end Sketch

end LiveEdit
