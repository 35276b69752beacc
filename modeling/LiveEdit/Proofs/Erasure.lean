import LiveEdit.Proofs.Agreement
import LiveEdit.Proofs.Images

/-!
# Erasures

An `Erasure` takes something away from the tokens of a tree: `Erasure.trivia` takes white space and
comments out of the tree, `Erasure.texts` leaves every token and takes its text.  Nodes stay.

* `Tree.withoutTrivia` and `Tree.withoutTexts` are what is left of a tree.
* `Node.erase` erases a node together with everything around it.
* `childNodes_erase`, `parent?_erase`, `preorder_erase`: going down, up and around in the erased
  tree is the same as erasing afterwards.
* `keepsChildren_erase`: so erasing goes with walks and with searches among children.
* `isSome_token?_erase`: a question for a token that is no trivia has one answer in both trees.
* `outline_erase` and `path_erase`: if every token stays, so do the outlines and the paths.
-/

namespace LiveEdit

/-- What is left of each token: nothing, or a text.  Only trivia can vanish. -/
structure Erasure where
  rest? : Kind → String → Option String
  isSome_rest? : ∀ k s, k.isTrivia = false → (rest? k s).isSome = true

namespace Erasure

/-- White space and comments vanish. -/
def trivia : Erasure where
  rest? k s := if k.isTrivia then none else some s
  isSome_rest? k s hk := by simp [hk]

/-- Every token stays and loses its text. -/
def texts : Erasure where
  rest? _ _ := some ""
  isSome_rest? _ _ _ := rfl

/-- No token vanishes. -/
def KeepsAll (e : Erasure) : Prop := ∀ k s, (e.rest? k s).isSome = true

theorem keepsAll_texts : texts.KeepsAll := fun _ _ => rfl

/-- What is left of a token, given by its kind and its text. -/
def respell? (e : Erasure) (t : Kind × String) : Option (Kind × String) :=
  (e.rest? t.1 t.2).map fun s => (t.1, s)

end Erasure

namespace Tree

mutual

/-- What is left of a tree. -/
def erase? (e : Erasure) : Tree → Option Tree
  | token k s => (e.rest? k s).map (token k)
  | node k cs => some (node k (eraseAll e cs))

/-- What is left of neighbouring trees. -/
def eraseAll (e : Erasure) : List Tree → List Tree
  | [] => []
  | t :: ts =>
    match erase? e t with
    | some u => u :: eraseAll e ts
    | none => eraseAll e ts

end

/-- A tree without its white space and its comments. -/
def withoutTrivia (t : Tree) : Option Tree := t.erase? .trivia

/-- A tree in which every token has lost its text. -/
def withoutTexts (t : Tree) : Option Tree := t.erase? .texts

theorem eraseAll_eq_filterMap (e : Erasure) (ts : List Tree) :
    eraseAll e ts = ts.filterMap (erase? e) := by
  induction ts with
  | nil => rfl
  | cons t ts ih =>
    rw [eraseAll, List.filterMap_cons, ih]
    cases erase? e t <;> rfl

theorem eraseAll_append (e : Erasure) (ts us : List Tree) :
    eraseAll e (ts ++ us) = eraseAll e ts ++ eraseAll e us := by
  simp [eraseAll_eq_filterMap]

theorem eraseAll_cons_of_some {e : Erasure} {t u : Tree} (ht : t.erase? e = some u)
    (ts : List Tree) : eraseAll e (t :: ts) = u :: eraseAll e ts := by
  rw [eraseAll, ht]

theorem eraseAll_cons_of_none {e : Erasure} {t : Tree} (ht : t.erase? e = none)
    (ts : List Tree) : eraseAll e (t :: ts) = eraseAll e ts := by
  rw [eraseAll, ht]

/-- The kind and the text of a tree that is a token. -/
def spelling? : Tree → Option (Kind × String)
  | token k s => some (k, s)
  | node .. => none

theorem bind_spelling?_erase? (e : Erasure) (t : Tree) :
    (t.erase? e).bind spelling? = t.spelling?.bind e.respell? := by
  cases t with
  | token k s =>
    simp only [erase?, spelling?, Option.bind_some, Erasure.respell?]
    cases e.rest? k s <;> rfl
  | node k cs => rfl

/-- If every token stays, a tree stays a token of its kind or a node. -/
theorem exists_erase?_of_keepsAll {e : Erasure} (he : e.KeepsAll) (t : Tree) :
    ∃ u, t.erase? e = some u ∧ u.tokenKind? = t.tokenKind? := by
  cases t with
  | token k s =>
    obtain ⟨s', hs⟩ := Option.isSome_iff_exists.mp (he k s)
    refine ⟨.token k s', ?_, rfl⟩
    rw [erase?, hs, Option.map_some]
  | node k cs => exact ⟨.node k (eraseAll e cs), rfl, rfl⟩

theorem map_tokenKind?_eraseAll {e : Erasure} (he : e.KeepsAll) (ts : List Tree) :
    (eraseAll e ts).map tokenKind? = ts.map tokenKind? := by
  induction ts with
  | nil => rfl
  | cons t ts ih =>
    obtain ⟨u, hu, hkind⟩ := exists_erase?_of_keepsAll he t
    rw [eraseAll_cons_of_some hu, List.map_cons, List.map_cons, hkind, ih]

theorem length_eraseAll {e : Erasure} (he : e.KeepsAll) (ts : List Tree) :
    (eraseAll e ts).length = ts.length := by
  simpa using congrArg List.length (map_tokenKind?_eraseAll he ts)

end Tree

/-- What is left around a child. -/
def Frame.erase (e : Erasure) (f : Frame) : Frame :=
  ⟨f.kind, Tree.eraseAll e f.before, Tree.eraseAll e f.after⟩

/-- The kind and the text of a token. -/
def Token.spelling (t : Token) : Kind × String := (t.kind, t.text)

namespace Node

/-- What is left of a node and of the tree around it. -/
def erase (e : Erasure) (n : Node) : Node :=
  ⟨0, n.kind, Tree.eraseAll e n.children, n.frames.map (Frame.erase e)⟩

variable (e : Erasure)

@[simp] theorem kind_erase (n : Node) : (n.erase e).kind = n.kind := rfl

theorem erase?_tree (n : Node) : n.tree.erase? e = some (n.erase e).tree := rfl

/-! ## Down -/

/-- The child nodes of `n` among its last children, given the children before these. -/
def childNodesAfter (n : Node) (before : List Tree) : List Tree → List Node
  | [] => []
  | .token k s :: after => n.childNodesAfter (before ++ [.token k s]) after
  | .node k cs :: after =>
    ⟨n.version, k, cs, ⟨n.kind, before, after⟩ :: n.frames⟩ ::
      n.childNodesAfter (before ++ [.node k cs]) after

theorem childNodesAfter_eq {n : Node} {before after : List Tree}
    (hchildren : n.children = before ++ after) :
    n.childNodesAfter before after =
      (after.mapIdx fun i => n.element (before.length + i)).filterMap Element.node? := by
  induction after generalizing before with
  | nil => rfl
  | cons t after ih =>
    have hnext : n.children = (before ++ [t]) ++ after := by simpa using hchildren
    have hrest := ih hnext
    have hshift : (fun i => n.element ((before ++ [t]).length + i)) =
        fun i => n.element (before.length + (i + 1)) := by
      funext i
      rw [List.length_append, List.length_singleton, Nat.add_assoc, Nat.add_comm 1]
    rw [hshift] at hrest
    rw [List.mapIdx_cons]
    cases t with
    | token k s => rw [childNodesAfter, hrest]; rfl
    | node k cs =>
      have hframe : n.element (before.length + 0) (.node k cs) =
          .node ⟨n.version, k, cs, ⟨n.kind, before, after⟩ :: n.frames⟩ := by
        simp [element, hchildren]
      rw [childNodesAfter, hrest, hframe]
      rfl

theorem childNodes_eq_childNodesAfter (n : Node) :
    n.childNodes = n.childNodesAfter [] n.children := by
  rw [childNodesAfter_eq (List.nil_append _).symm]
  simp only [childNodes, elements, List.length_nil, Nat.zero_add]

theorem childNodesAfter_erase (n : Node) (before after : List Tree) :
    (n.erase e).childNodesAfter (Tree.eraseAll e before) (Tree.eraseAll e after) =
      (n.childNodesAfter before after).map (erase e) := by
  induction after generalizing before with
  | nil => rfl
  | cons t after ih =>
    have hrest := ih (before ++ [t])
    rw [Tree.eraseAll_append] at hrest
    cases ht : t.erase? e with
    | none =>
      cases t with
      | token k s =>
        rw [Tree.eraseAll_cons_of_none ht, Tree.eraseAll, List.append_nil] at hrest
        rw [Tree.eraseAll_cons_of_none ht, childNodesAfter, hrest]
      | node k cs => cases ht
    | some u =>
      rw [Tree.eraseAll_cons_of_some ht, Tree.eraseAll] at hrest
      rw [Tree.eraseAll_cons_of_some ht]
      cases t with
      | token k s =>
        obtain ⟨s', -, rfl⟩ := Option.map_eq_some_iff.mp ht
        rw [childNodesAfter, childNodesAfter, hrest]
      | node k cs =>
        obtain rfl := Option.some.inj ht
        rw [childNodesAfter, childNodesAfter, hrest]
        rfl

/-- The child nodes of what is left are what is left of the child nodes. -/
theorem childNodes_erase (n : Node) : (n.erase e).childNodes = n.childNodes.map (erase e) := by
  rw [childNodes_eq_childNodesAfter, childNodes_eq_childNodesAfter]
  exact childNodesAfter_erase e n [] n.children

/-! ## Up -/

theorem enclosing_erase (version : Nat) {t u : Tree} (ht : t.erase? e = some u)
    (fs : List Frame) :
    enclosing 0 u (fs.map (Frame.erase e)) = (enclosing version t fs).map (erase e) := by
  induction fs generalizing t u with
  | nil => rfl
  | cons f fs ih =>
    have hparent : (⟨version, f.kind, f.before ++ t :: f.after, fs⟩ : Node).erase e =
        ⟨0, f.kind, Tree.eraseAll e f.before ++ u :: Tree.eraseAll e f.after,
          fs.map (Frame.erase e)⟩ := by
      rw [erase, Tree.eraseAll_append, Tree.eraseAll_cons_of_some ht]
    have habove := ih (erase?_tree e ⟨version, f.kind, f.before ++ t :: f.after, fs⟩)
    rw [hparent] at habove
    simp only [List.map_cons, enclosing, Frame.erase, hparent, habove]

theorem properAncestors_erase (n : Node) :
    (n.erase e).properAncestors = n.properAncestors.map (erase e) :=
  enclosing_erase e n.version (erase?_tree e n) n.frames

/-- The parent of what is left is what is left of the parent. -/
theorem parent?_erase (n : Node) : (n.erase e).parent? = n.parent?.map (erase e) := by
  rw [parent?, parent?, properAncestors_erase, List.head?_map]

/-! ## Around -/

theorem keepsChildren_erase : KeepsChildren (erase e) := ⟨kind_erase e, childNodes_erase e⟩

theorem preorder_erase (n : Node) : (n.erase e).preorder = n.preorder.map (erase e) :=
  (keepsChildren_erase e).preorder n

/-! ## Tokens -/

/-- The tokens of a node, each as its kind and its text. -/
def spellings (n : Node) : List (Kind × String) := n.children.filterMap Tree.spelling?

/-- A choice that does not look at the index is a choice among the values. -/
theorem filterMap_mapIdx {α β γ : Type} {f : Nat → α → β} {g : β → Option γ} {h : α → Option γ}
    (hindex : ∀ i a, g (f i a) = h a) (l : List α) : (l.mapIdx f).filterMap g = l.filterMap h := by
  induction l generalizing f with
  | nil => rfl
  | cons a l ih =>
    rw [List.mapIdx_cons, List.filterMap_cons, List.filterMap_cons, hindex,
      ih fun i => hindex (i + 1)]

theorem map_spelling_tokens (n : Node) : n.tokens.map Token.spelling = n.spellings := by
  rw [tokens, List.map_filterMap, elements, spellings]
  apply filterMap_mapIdx
  intro i t
  cases t <;> rfl

theorem isSome_token?_eq_any (n : Node) (k : Kind) :
    (n.token? k).isSome = n.spellings.any fun t => t.1 == k := by
  rw [token?, List.isSome_find?, ← map_spelling_tokens, List.any_map]
  rfl

theorem spellings_erase (n : Node) : (n.erase e).spellings = n.spellings.filterMap e.respell? := by
  rw [spellings, spellings, erase, Tree.eraseAll_eq_filterMap, List.filterMap_filterMap,
    List.filterMap_filterMap]
  simp only [Tree.bind_spelling?_erase?]

/-- A token that is no trivia is there if it was there before. -/
theorem isSome_token?_erase {k : Kind} (hk : k.isTrivia = false) (n : Node) :
    ((n.erase e).token? k).isSome = (n.token? k).isSome := by
  rw [isSome_token?_eq_any, isSome_token?_eq_any, spellings_erase, List.any_filterMap]
  congr 1
  funext t
  by_cases ht : t.1 = k
  · obtain ⟨s, hs⟩ := Option.isSome_iff_exists.mp (e.isSome_rest? t.1 t.2 (ht ▸ hk))
    simp [Erasure.respell?, hs]
  · cases hs : e.rest? t.1 t.2 <;> simp [Erasure.respell?, hs, ht]

/-- The keywords, each as its kind and its text. -/
theorem map_spelling_keywords (n : Node) :
    n.keywords.map Token.spelling = n.spellings.filter fun t => !t.1.isTrivia := by
  rw [← map_spelling_tokens, List.filter_map]
  rfl

/-! ## Erasures that keep every token -/

variable {e}

theorem outline_erase (he : e.KeepsAll) (n : Node) : (n.erase e).outline = n.outline := by
  rw [outline, outline, erase, Tree.map_tokenKind?_eraseAll he]

/-- If every token stays, every node stays at its path. -/
theorem path_erase (he : e.KeepsAll) (n : Node) : (n.erase e).path = n.path := by
  simp [path, erase, Frame.erase, Function.comp_def, Tree.length_eraseAll he]

end Node

end LiveEdit
