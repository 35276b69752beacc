/-!
# Blank characters

`isBlank` is the property `White_Space`, and `trim` takes blanks off both ends of a text.
`trim_eq_iff` says what is left: the one text without blanks at its ends that blanks alone separate
from the whole.
-/

namespace LiveEdit.Text

/-- Blank characters: the property `White_Space`. -/
def isBlank (c : Char) : Bool :=
  (0x9 ≤ c.toNat && c.toNat ≤ 0xD) || c.toNat == 0x20 || c.toNat == 0x85 || c.toNat == 0xA0
    || c.toNat == 0x1680 || (0x2000 ≤ c.toNat && c.toNat ≤ 0x200A) || c.toNat == 0x2028
    || c.toNat == 0x2029 || c.toNat == 0x202F || c.toNat == 0x205F || c.toNat == 0x3000

/-- No printable ASCII character but the space is a blank. -/
theorem isBlank_eq_false {c : Char} (hc : 0x20 < c.toNat ∧ c.toNat < 0x80) :
    isBlank c = false := by
  simp [isBlank]
  omega

/-- A text without the blanks at its end. -/
def trimRight (cs : List Char) : List Char := (cs.reverse.dropWhile isBlank).reverse

/-- A text without the blanks at its two ends. -/
def trim (cs : List Char) : List Char := trimRight (cs.dropWhile isBlank)

/-! ## Trimmed texts -/

/-- A text of blanks only. -/
def AllBlank (cs : List Char) : Prop := ∀ c ∈ cs, isBlank c = true

/-- A text that neither starts nor ends with a blank. -/
def IsTrimmed (cs : List Char) : Prop :=
  (∀ c ∈ cs.head?, isBlank c = false) ∧ ∀ c ∈ cs.getLast?, isBlank c = false

theorem AllBlank.append {as bs : List Char} (has : AllBlank as) (hbs : AllBlank bs) :
    AllBlank (as ++ bs) :=
  List.forall_mem_append.mpr ⟨has, hbs⟩

theorem dropWhile_isBlank_append {bs cs : List Char} (hbs : AllBlank bs)
    (hcs : ∀ c ∈ cs.head?, isBlank c = false) : (bs ++ cs).dropWhile isBlank = cs := by
  rw [List.dropWhile_append_of_pos hbs]
  cases cs with
  | nil => rfl
  | cons c cs => rw [List.dropWhile_cons_of_neg (by simp [hcs c rfl])]

theorem trimRight_append {bs cs : List Char} (hbs : AllBlank bs)
    (hcs : ∀ c ∈ cs.getLast?, isBlank c = false) : trimRight (cs ++ bs) = cs := by
  rw [trimRight, List.reverse_append, dropWhile_isBlank_append, List.reverse_reverse]
  · intro c hc
    exact hbs c (List.mem_reverse.mp hc)
  · rwa [List.head?_reverse]

/-- Blanks around a trimmed text are taken off, and nothing else.  If the text is empty, the blanks
behind go with the blanks in front. -/
theorem trim_append_of_isTrimmed {before cs after : List Char} (hbefore : AllBlank before)
    (hafter : AllBlank after) (hcs : IsTrimmed cs) : trim (before ++ cs ++ after) = cs := by
  rw [trim, List.append_assoc]
  cases cs with
  | nil =>
    have hdrop : (before ++ after ++ []).dropWhile isBlank = [] :=
      dropWhile_isBlank_append (hbefore.append hafter) nofun
    rw [List.append_nil] at hdrop
    rw [List.nil_append, hdrop]
    rfl
  | cons c cs =>
    rw [dropWhile_isBlank_append hbefore (by simpa using hcs.1), trimRight_append hafter hcs.2]

theorem allBlank_takeWhile (cs : List Char) : AllBlank (cs.takeWhile isBlank) :=
  List.all_eq_true.mp List.all_takeWhile

theorem isBlank_head?_dropWhile (cs : List Char) :
    ∀ c ∈ (cs.dropWhile isBlank).head?, isBlank c = false := by
  intro c hc
  have hhead := List.head?_dropWhile_not isBlank cs
  rwa [Option.mem_def.mp hc] at hhead

theorem exists_trimRight_append (cs : List Char) :
    ∃ after, AllBlank after ∧ cs = trimRight cs ++ after := by
  refine ⟨(cs.reverse.takeWhile isBlank).reverse, ?_, ?_⟩
  · intro c hc
    exact allBlank_takeWhile cs.reverse c (List.mem_reverse.mp hc)
  · rw [trimRight, ← List.reverse_append, List.takeWhile_append_dropWhile, List.reverse_reverse]

/-- A text is trimmed once the blanks are off.  What is left starts as the text did when the blanks in
front were gone. -/
theorem isTrimmed_trim (cs : List Char) : IsTrimmed (trim cs) := by
  constructor
  · intro c hc
    obtain ⟨after, -, hsplit⟩ := exists_trimRight_append (cs.dropWhile isBlank)
    apply isBlank_head?_dropWhile cs
    rw [hsplit, List.head?_append, ← trim, Option.mem_def.mp hc]
    rfl
  · intro c hc
    rw [trim, trimRight, List.getLast?_reverse] at hc
    exact isBlank_head?_dropWhile _ c hc

/-- Trimming finds the one trimmed text with blanks only around it. -/
theorem trim_eq_iff {cs ds : List Char} :
    trim cs = ds ↔ IsTrimmed ds ∧
      ∃ before after, AllBlank before ∧ AllBlank after ∧ cs = before ++ ds ++ after := by
  constructor
  · rintro rfl
    obtain ⟨after, hafter, hsplit⟩ := exists_trimRight_append (cs.dropWhile isBlank)
    refine ⟨isTrimmed_trim cs, cs.takeWhile isBlank, after, allBlank_takeWhile cs, hafter, ?_⟩
    rw [trim, List.append_assoc, ← hsplit, List.takeWhile_append_dropWhile]
  · rintro ⟨htrimmed, before, after, hbefore, hafter, rfl⟩
    exact trim_append_of_isTrimmed hbefore hafter htrimmed

/-- A trimmed text stays as it is. -/
theorem trim_trim (cs : List Char) : trim (trim cs) = trim cs :=
  trim_eq_iff.mpr ⟨isTrimmed_trim cs, [], [], nofun, nofun, by simp⟩

/-- Blanks added in front and behind make no difference. -/
theorem trim_padded {before after : List Char} (hbefore : AllBlank before)
    (hafter : AllBlank after) (cs : List Char) : trim (before ++ cs ++ after) = trim cs := by
  obtain ⟨htrimmed, front, back, hfront, hback, hcs⟩ := trim_eq_iff.mp (rfl : trim cs = trim cs)
  refine trim_eq_iff.mpr
    ⟨htrimmed, before ++ front, back ++ after, hbefore.append hfront, hback.append hafter, ?_⟩
  conv => lhs; rw [hcs]
  simp only [List.append_assoc]

/-! ## The case of letters -/

/-- Two texts that differ in the case of ASCII letters only. -/
def SameLetters (cs ds : List Char) : Prop := cs.map Char.toLower = ds.map Char.toLower

/-- Case makes no blank.  The small letter of a capital letter stands 32 places behind it. -/
theorem isBlank_toLower (c : Char) : isBlank c.toLower = isBlank c := by
  by_cases h : 'A'.val ≤ c.val ∧ c.val ≤ 'Z'.val
  · have hlower : c.toLower.val = c.val + 32 := congrArg Char.val (dif_pos h)
    have hlow : 65 ≤ c.val.toNat := UInt32.le_iff_toNat_le.mp h.1
    have hhigh : c.val.toNat ≤ 90 := UInt32.le_iff_toNat_le.mp h.2
    have hsmall : c.toLower.val.toNat = c.val.toNat + 32 := by
      rw [hlower, UInt32.toNat_add, show (32 : UInt32).toNat = 32 from rfl]
      exact Nat.mod_eq_of_lt (by omega)
    rw [isBlank_eq_false (c := c) (by unfold Char.toNat; omega),
      isBlank_eq_false (by unfold Char.toNat; omega)]
  · have hlower : c.toLower = c := dif_neg h
    rw [hlower]

theorem trim_map_toLower (cs : List Char) :
    trim (cs.map Char.toLower) = (trim cs).map Char.toLower := by
  have hblank : isBlank ∘ Char.toLower = isBlank := funext isBlank_toLower
  have hdrop (ds : List Char) :
      (ds.map Char.toLower).dropWhile isBlank = (ds.dropWhile isBlank).map Char.toLower := by
    rw [List.dropWhile_map, hblank]
  rw [trim, trim, trimRight, trimRight, hdrop, ← List.map_reverse, hdrop, List.map_reverse]

theorem SameLetters.trim {cs ds : List Char} (h : SameLetters cs ds) :
    SameLetters (trim cs) (trim ds) := by
  rw [SameLetters, ← trim_map_toLower, ← trim_map_toLower, h]

end LiveEdit.Text
