import LiveEdit.Syntax.Kind

/-!
# Syntax trees

A `Tree` is a token with its text, or a node with its children in source order.  A tree has no
position of its own; `Syntax.Node` adds one.

* `Tree.text` is the source text and `Tree.width` its length in bytes
  (`Tree.width_eq_utf8ByteSize_text`).
* `Tree.size` counts tokens and nodes.  Recursion on located nodes ends by it.
* `Tree.narrow` says that no node of the tree has more than three children.
-/

namespace LiveEdit

/-- A token, or a node with its children. -/
inductive Tree where
  | token (kind : Kind) (text : String)
  | node (kind : Kind) (children : List Tree)
  deriving Inhabited

namespace Tree

/-- Induction in which the children of a node satisfy the claim. -/
theorem induction {P : Tree → Prop} (token : ∀ k s, P (token k s))
    (node : ∀ k cs, (∀ c ∈ cs, P c) → P (node k cs)) : ∀ t, P t :=
  @Tree.rec P (fun cs => ∀ c ∈ cs, P c) token node
    (fun _ h => nomatch h)
    (fun _ _ hc hcs _ h => by
      cases h with
      | head => exact hc
      | tail _ h => exact hcs _ h)

/-- The kind of the root of a tree. -/
def kind : Tree → Kind
  | token k _ => k
  | node k _ => k

/-- Whether the tree is a single token. -/
def isToken : Tree → Bool
  | token .. => true
  | node .. => false

mutual

/-- The source text of a tree. -/
def text : Tree → String
  | token _ s => s
  | node _ cs => texts cs

/-- The source text of neighbouring trees. -/
def texts : List Tree → String
  | [] => ""
  | c :: cs => c.text ++ texts cs

end

mutual

/-- The length of a tree's text in bytes.  Lengths and offsets are natural numbers, without the bound
that 32 bits set to them where trees are stored. -/
def width : Tree → Nat
  | token _ s => s.utf8ByteSize
  | node _ cs => widths cs

/-- The length in bytes of the text of neighbouring trees. -/
def widths : List Tree → Nat
  | [] => 0
  | c :: cs => c.width + widths cs

end

mutual

/-- The number of tokens and nodes. -/
def size : Tree → Nat
  | token .. => 1
  | node _ cs => sizes cs + 1

/-- The number of tokens and nodes in neighbouring trees. -/
def sizes : List Tree → Nat
  | [] => 0
  | c :: cs => c.size + sizes cs

end

mutual

/-- No node of the tree has more than three children. -/
def narrow : Tree → Bool
  | token .. => true
  | node _ cs => cs.length ≤ 3 && allNarrow cs

/-- No node of the neighbouring trees has more than three children. -/
def allNarrow : List Tree → Bool
  | [] => true
  | c :: cs => c.narrow && allNarrow cs

end

mutual

/-- Equality of trees is decidable. -/
def decEq : (a b : Tree) → Decidable (a = b)
  | token k s, token l t => decidable_of_iff (k = l ∧ s = t) (by simp)
  | node k cs, node l ds =>
    match decEqList cs ds with
    | isTrue h => decidable_of_iff (k = l) (by simp [h])
    | isFalse h => isFalse (by simp [h])
  | token .., node .. => isFalse nofun
  | node .., token .. => isFalse nofun

/-- Equality of lists of trees is decidable. -/
def decEqList : (cs ds : List Tree) → Decidable (cs = ds)
  | [], [] => isTrue rfl
  | c :: cs, d :: ds =>
    match decEq c d with
    | isTrue h => match decEqList cs ds with
      | isTrue hs => isTrue (by rw [h, hs])
      | isFalse hs => isFalse (by simp [hs])
    | isFalse h => isFalse (by simp [h])
  | [], _ :: _ => isFalse nofun
  | _ :: _, [] => isFalse nofun

end

instance : DecidableEq Tree := decEq

theorem size_le_sizes {c : Tree} {cs : List Tree} (h : c ∈ cs) : c.size ≤ sizes cs := by
  induction cs with
  | nil => cases h
  | cons d ds ih =>
    simp only [sizes]
    cases h with
    | head => omega
    | tail _ h => have := ih h; omega

theorem widths_append (as bs : List Tree) : widths (as ++ bs) = widths as + widths bs := by
  induction as with
  | nil => simp [widths]
  | cons a as ih => simp [widths, ih, Nat.add_assoc]

private theorem widths_eq_utf8ByteSize_texts {cs : List Tree}
    (h : ∀ c ∈ cs, c.width = c.text.utf8ByteSize) : widths cs = (texts cs).utf8ByteSize := by
  induction cs with
  | nil => simp [widths, texts]
  | cons c cs ih =>
    simp only [widths, texts, String.utf8ByteSize_append]
    rw [h c List.mem_cons_self, ih fun d hd => h d (List.mem_cons_of_mem _ hd)]

/-- The width is the length of the text. -/
theorem width_eq_utf8ByteSize_text (t : Tree) : t.width = t.text.utf8ByteSize := by
  induction t using Tree.induction with
  | token k s => rfl
  | node k cs ih => exact widths_eq_utf8ByteSize_texts ih

end Tree

end LiveEdit
