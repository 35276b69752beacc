import LiveEdit.Member
import LiveEdit.Proofs.Erasure

/-!
# What the analysis reads of an erased tree

No question of the analysis looks at trivia or at the text of a token.  So each answer about an
erased node is what is left of the answer about the node: the same truth value, or the erased
node.

* `child?_erase` and `childrenOf_erase` carry over to every named part.
* `ownBody?_erase`: the body of a declaration.
* `suspension?_erase`, `resumePoints_erase`, `isGenerator_erase`: the state machine of a node.
* `isAsync_erase`, `isParameterlessConstructor_erase`, `hasBackingField_erase`, `getterBody?_erase`:
  the small questions.
* `keywords_erase`: the keywords, which are read with their texts.
-/

namespace LiveEdit

/-- What is left of a body. -/
def Body.erase (e : Erasure) (b : Body) : Body := ⟨b.form, b.node.erase e⟩

/-- What is left of a declaration. -/
def Declaration.erase (e : Erasure) (d : Declaration) : Declaration :=
  ⟨d.node.erase e, d.form, d.form_eq⟩

/-- What is left of a suspension point. -/
def SuspensionPoint.erase (e : Erasure) (p : SuspensionPoint) : SuspensionPoint :=
  ⟨p.kind, p.node.erase e⟩

namespace Node

variable (e : Erasure) (n : Node)

/-! ## Parts -/

theorem child?_erase (accepts : Kind → Bool) :
    (n.erase e).child? accepts = (n.child? accepts).map (erase e) :=
  (keepsChildren_erase e).child? n accepts

theorem childOf?_erase (k : Kind) : (n.erase e).childOf? k = (n.childOf? k).map (erase e) :=
  child?_erase e n _

theorem childrenOf_erase (accepts : Kind → Bool) :
    (n.erase e).childrenOf accepts = (n.childrenOf accepts).map (erase e) :=
  (keepsChildren_erase e).childrenOf n accepts

theorem hasModifier_erase {k : Kind} (hk : k.isTrivia = false) :
    (n.erase e).hasModifier k = n.hasModifier k := by
  rw [hasModifier, hasModifier, modifiers?, childOf?_erase, modifiers?]
  exact any_map_image (isSome_token?_erase e hk) _

theorem expression?_erase : (n.erase e).expression? = n.expression?.map (erase e) :=
  child?_erase e n _

theorem arrow?_erase : (n.erase e).arrow? = n.arrow?.map (erase e) :=
  childOf?_erase e n .arrowExpressionClause

theorem block?_erase : (n.erase e).block? = n.block?.map (erase e) :=
  childOf?_erase e n .block

/-! ## Bodies -/

theorem blockOrArrow?_erase :
    (n.erase e).blockOrArrow? = n.blockOrArrow?.map (Body.erase e) :=
  (keepsChildren_erase e).blockOrArrow? n

theorem getter?_erase : (n.erase e).getter? = n.getter?.map (erase e) := by
  have haccessor : ∀ l : Node,
      ((l.erase e).accessors.find? fun a => a.kind == .getAccessorDeclaration) =
        (l.accessors.find? fun a => a.kind == .getAccessorDeclaration).map (erase e) := by
    intro l
    rw [accessors, accessors, childrenOf_erase, List.find?_map]
    rfl
  rw [getter?, getter?, accessorList?, childOf?_erase, accessorList?]
  exact bind_map_image haccessor _

theorem getterBody?_erase : (n.erase e).getterBody? = n.getterBody?.map (Body.erase e) := by
  unfold getterBody?
  rw [kind_erase, arrow?_erase, getter?_erase]
  split
  · cases n.arrow? with
    | none => exact bind_map_image (blockOrArrow?_erase e) _
    | some a =>
      show (a.erase e).expression?.map (Body.mk .expression) = _
      rw [expression?_erase, map_mk_image]
      rfl
  · rfl

end Node

namespace Declaration

variable (e : Erasure)

/-- The body of what is left of a declaration is what is left of its body. -/
theorem ownBody?_erase (d : Declaration) :
    (d.erase e).ownBody? = d.ownBody?.map (Body.erase e) := by
  refine (Node.keepsChildren_erase e).ownBody? d fun _ => ?_
  rw [Node.parent?_erase, Option.map_map]
  rfl

end Declaration

namespace Node

variable (e : Erasure) (n : Node)

theorem declaration?_erase :
    (n.erase e).declaration? = n.declaration?.map (Declaration.erase e) := by
  cases hd : n.declaration? with
  | none =>
    have hnone := declaration?_isSome (n.erase e)
    rw [kind_erase, ← declaration?_isSome, hd] at hnone
    exact Option.not_isSome_iff_eq_none.mp (Bool.eq_false_iff.mp hnone)
  | some d =>
    have hnode := node_of_declaration? hd
    subst hnode
    exact declaration?_node (d.erase e)

/-! ## State machines -/

theorem cue_erase : (n.erase e).cue = n.cue := by
  have hawait : Kind.awaitKw.isTrivia = false := rfl
  rw [cue, cue, await?, isSome_token?_erase e hawait, kind_erase, await?]

/-- What is left of a node suspends as the node does. -/
theorem suspension?_erase : (n.erase e).suspension? = n.suspension? := by
  apply suspension?_congr (cue_erase e n)
  rw [parent?_erase, bind_map_image (parent?_erase e), Option.map_map]
  congr 1
  funext m
  exact cue_erase e m

theorem resumePoints_erase :
    (n.erase e).resumePoints = n.resumePoints.map (SuspensionPoint.erase e) :=
  (keepsChildren_erase e).resumePoints fun m _ => suspension?_erase e m

theorem isGenerator_erase : (n.erase e).isGenerator = n.isGenerator :=
  (keepsChildren_erase e).isGenerator fun m _ => suspension?_erase e m

theorem isAsync_erase : (n.erase e).isAsync = n.isAsync := by
  have hasync : ∀ d : Node,
      (((d.erase e).kind == .methodDeclaration || (d.erase e).kind == .localFunctionStatement
          || (d.erase e).kind.isLambda) && (d.erase e).hasModifier .asyncKw) =
        ((d.kind == .methodDeclaration || d.kind == .localFunctionStatement || d.kind.isLambda)
          && d.hasModifier .asyncKw) := by
    intro d
    rw [hasModifier_erase e d rfl, kind_erase]
  unfold isAsync
  rw [kind_erase]
  split
  · rw [parent?_erase]
    exact any_map_image hasync _
  · exact hasync n

/-! ## Small questions -/

theorem isParameterlessConstructor_erase :
    (n.erase e).isParameterlessConstructor = n.isParameterlessConstructor := by
  have hempty : ∀ l : Node, (l.erase e).parameters.isEmpty = l.parameters.isEmpty := by
    intro l
    rw [parameters, parameters, childrenOf_erase, List.isEmpty_map]
  rw [isParameterlessConstructor, isParameterlessConstructor, kind_erase, parameterList?,
    child?_erase, Option.all_map, parameterList?]
  simp only [hempty]

theorem isAutoImplemented_erase : (n.erase e).isAutoImplemented = n.isAutoImplemented := by
  rw [isAutoImplemented, isAutoImplemented, block?_erase, arrow?_erase, Option.isNone_map,
    Option.isNone_map]

theorem hasBackingField_erase : (n.erase e).hasBackingField = n.hasBackingField := by
  have hempty : ∀ l : Node,
      (l.erase e).accessors.any isAutoImplemented = l.accessors.any isAutoImplemented := by
    intro l
    rw [accessors, accessors, childrenOf_erase, List.any_map]
    congr 1
    funext a
    exact isAutoImplemented_erase e a
  have hlist : ((n.erase e).accessorList?.any fun l => l.accessors.any isAutoImplemented) =
      n.accessorList?.any fun l => l.accessors.any isAutoImplemented := by
    rw [accessorList?, childOf?_erase, accessorList?]
    exact any_map_image hempty _
  rw [hasBackingField, hasBackingField, hasModifier_erase e n rfl, hasModifier_erase e n rfl,
    arrow?_erase, Option.isNone_map, hlist]

/-! ## Keywords -/

/-- The keywords that are left, with what is left of their texts. -/
theorem keywords_erase :
    (n.erase e).keywords.map Token.spelling =
      (n.keywords.map Token.spelling).filterMap e.respell? := by
  rw [map_spelling_keywords, map_spelling_keywords, spellings_erase, List.filter_filterMap,
    List.filterMap_filter]
  congr 1
  funext t
  cases hs : e.rest? t.1 t.2 <;> cases ht : t.1.isTrivia <;>
    simp [Erasure.respell?, hs, ht, Option.filter_some]

/-- Without trivia, the keywords are spelled as before. -/
theorem keywords_erase_trivia :
    (n.erase .trivia).keywords.map Token.spelling = n.keywords.map Token.spelling := by
  rw [keywords_erase, map_spelling_keywords, List.filterMap_filter, ← List.filterMap_eq_filter]
  congr 1
  funext t
  cases ht : t.1.isTrivia <;> simp [Erasure.respell?, Erasure.trivia, Option.guard, ht]

theorem fieldOrPropertyModifiers?_erase_trivia :
    ((n.erase .trivia).fieldOrPropertyModifiers?.map fun ts => ts.map Token.spelling) =
      n.fieldOrPropertyModifiers?.map fun ts => ts.map Token.spelling := by
  unfold fieldOrPropertyModifiers?
  rw [kind_erase, modifiers?, childOf?_erase, ← modifiers?]
  split
  · cases n.modifiers? with
    | none => rfl
    | some m => exact congrArg some (keywords_erase_trivia m)
  · rfl

end Node

end LiveEdit
