import LiveEdit.Settings.Logging

/-!
# The level setting

A level setting is blank, or the name of a level, or anything else, which is then a list of
directives.  Only the text between the blanks around it counts.

* `directivesOf_of_blank`, `directivesOf_of_name` and `directivesOf_of_directives` say what each of
  the three is taken for.
* `trim_directivesOf` and `directivesOf_directivesOf`: what comes out has no blanks around it, and
  is taken for itself.
* `directives_canonical`: the directives of a setting are its canonical form.
-/

namespace LiveEdit.Logging

open Text

/-- The names of levels, each with the directive that it stands for. -/
def levelNames : List (String × String) :=
  [("trace", "trace"), ("debug", "debug"), ("info", "info"), ("warn", "warn"), ("error", "error"),
    ("warning", "warn")]

/-! ## What a setting is taken for -/

theorem sameLetters_iff_of_mem_levelNames {cs : List Char} {p : String × String}
    (hp : p ∈ levelNames) : SameLetters cs p.1.toList ↔ cs.map Char.toLower = p.1.toList := by
  have hlower : ∀ p ∈ levelNames, p.1.toList.map Char.toLower = p.1.toList := by decide
  rw [SameLetters, hlower p hp]

/-- The blanks around a setting do not count. -/
theorem directivesOf_congr {cs ds : List Char} (htrim : trim cs = trim ds) :
    directivesOf cs = directivesOf ds := by
  rw [directivesOf, directivesOf, htrim]

/-- A blank setting means the default level. -/
theorem directivesOf_of_blank {cs : List Char} (hblank : trim cs = []) :
    directivesOf cs = default.level.toList := by
  rw [directivesOf, hblank]
  rfl

/-- The name of a level in any case means what the name stands for. -/
theorem directivesOf_of_name {cs : List Char} {p : String × String} (hp : p ∈ levelNames)
    (hname : SameLetters (trim cs) p.1.toList) : directivesOf cs = p.2.toList := by
  rw [sameLetters_iff_of_mem_levelNames hp] at hname
  simp only [directivesOf, hname]
  simp only [levelNames, List.mem_cons, List.not_mem_nil, or_false] at hp
  rcases hp with rfl | rfl | rfl | rfl | rfl | rfl <;> rfl

/-- Anything else is a list of directives. -/
theorem directivesOf_of_directives {cs : List Char} (hblank : trim cs ≠ [])
    (hname : ∀ p ∈ levelNames, ¬ SameLetters (trim cs) p.1.toList) :
    directivesOf cs = trim cs := by
  have hlower : ∀ p ∈ levelNames, (trim cs).map Char.toLower ≠ p.1.toList := by
    intro p hp
    rw [Ne, ← sameLetters_iff_of_mem_levelNames hp]
    exact hname p hp
  rw [directivesOf, if_neg, if_neg, if_neg]
  · rw [List.contains_iff_mem, List.mem_map]
    rintro ⟨name, hmem, heq⟩
    have hnames : ∀ name ∈ ["trace", "debug", "info", "warn", "error"],
        (name, name) ∈ levelNames := by decide
    exact hlower _ (hnames name hmem) heq.symm
  · exact hlower ("warning", "warn") (by decide)
  · simpa using hblank

theorem directivesOf_cases (cs : List Char) :
    directivesOf cs = default.level.toList ∨ (∃ p ∈ levelNames, directivesOf cs = p.2.toList) ∨
      trim cs ≠ [] ∧ directivesOf cs = trim cs := by
  by_cases hblank : trim cs = []
  · exact .inl (directivesOf_of_blank hblank)
  · by_cases hname : ∃ p ∈ levelNames, SameLetters (trim cs) p.1.toList
    · obtain ⟨p, hp, hletters⟩ := hname
      exact .inr (.inl ⟨p, hp, directivesOf_of_name hp hletters⟩)
    · have hno : ∀ p ∈ levelNames, ¬ SameLetters (trim cs) p.1.toList := by
        intro p hp hletters
        exact hname ⟨p, hp, hletters⟩
      exact .inr (.inr ⟨hblank, directivesOf_of_directives hblank hno⟩)

/-! ## What comes out -/

/-- A setting always has directives. -/
theorem directivesOf_ne_nil (cs : List Char) : directivesOf cs ≠ [] := by
  rcases directivesOf_cases cs with hdefault | ⟨p, hp, hname⟩ | ⟨hblank, hself⟩
  · rw [hdefault]
    decide
  · have hnames : ∀ p ∈ levelNames, p.2.toList ≠ [] := by decide
    rw [hname]
    exact hnames p hp
  · rwa [hself]

theorem trim_directivesOf (cs : List Char) : trim (directivesOf cs) = directivesOf cs := by
  rcases directivesOf_cases cs with hdefault | ⟨p, hp, hname⟩ | ⟨-, hself⟩
  · rw [hdefault]
    decide
  · have hnames : ∀ p ∈ levelNames, trim p.2.toList = p.2.toList := by decide
    rw [hname]
    exact hnames p hp
  · rw [hself, trim_trim]

/-- Directives that came out of a setting are taken for themselves.  A list of directives is the
setting without the blanks around it, and these make no difference. -/
theorem directivesOf_directivesOf (cs : List Char) :
    directivesOf (directivesOf cs) = directivesOf cs := by
  rcases directivesOf_cases cs with hdefault | ⟨p, hp, hname⟩ | ⟨-, hself⟩
  · rw [hdefault]
    decide
  · have hnames : ∀ p ∈ levelNames, directivesOf p.2.toList = p.2.toList := by decide
    rw [hname]
    exact hnames p hp
  · calc directivesOf (directivesOf cs)
      _ = directivesOf (trim cs) := by rw [hself]
      _ = directivesOf cs := directivesOf_congr (trim_trim cs)

theorem directives_eq_iff {l : Logging} {ds : List Char} :
    l.directives = String.ofList ds ↔ directivesOf l.level.toList = ds := by
  rw [directives, String.ofList_inj]

theorem toList_directives (l : Logging) : l.directives.toList = directivesOf l.level.toList := by
  rw [directives, String.toList_ofList]

/-- The directives of a level setting are its canonical form.  They are never empty and have no
blanks around them.  Blanks around the setting make no difference, and directives set as the level
are their own directives.  All spellings of a level's name in small and capital ASCII letters come
to one name in small letters, which is `warn` for `warning`.  Every other setting that is not blank
stays as it is between the blanks around it. -/
theorem directives_canonical (l : Logging) :
    (l.directives ≠ "" ∧ IsTrimmed l.directives.toList) ∧
    (∀ (before after : List Char) (l' : Logging), AllBlank before → AllBlank after →
      l'.level.toList = before ++ l.level.toList ++ after → l'.directives = l.directives) ∧
    (∀ l' : Logging, l'.level = l.directives → l'.directives = l.directives) ∧
    (∀ p ∈ levelNames, SameLetters (trim l.level.toList) p.1.toList →
      ∀ l' : Logging, SameLetters l'.level.toList l.level.toList → l'.directives = p.2) ∧
    (trim l.level.toList ≠ [] →
      (∀ p ∈ levelNames, ¬ SameLetters (trim l.level.toList) p.1.toList) →
      l.directives = String.ofList (trim l.level.toList)) := by
  refine ⟨⟨?_, ?_⟩, ?_, ?_, ?_, ?_⟩
  · intro hempty
    rw [← String.ofList_nil, directives_eq_iff] at hempty
    exact directivesOf_ne_nil _ hempty
  · rw [toList_directives, ← trim_directivesOf]
    exact isTrimmed_trim _
  · intro before after l' hbefore hafter hlevel
    rw [directives, directives, hlevel, directivesOf_congr (trim_padded hbefore hafter _)]
  · intro l' hlevel
    rw [directives, hlevel, toList_directives, directivesOf_directivesOf, directives]
  · intro p hp hname l' hspelled
    have hname' : SameLetters (trim l'.level.toList) p.1.toList := hspelled.trim.trans hname
    rw [directives, directivesOf_of_name hp hname', String.ofList_toList]
  · intro hblank hname
    rw [directives, directivesOf_of_directives hblank hname]

/-- Blanks beyond ASCII around a name in capitals, another spelling of it, and capitals in a
directive. -/
theorem directives_canonical_of_capitals :
    let named : Logging := ⟨"\u00a0 WarNING\u3000\n", false, true⟩
    let spelled : Logging := ⟨"\u00a0 wARNing\u3000\n", true, false⟩
    let directive : Logging := ⟨"\tApp=WARNING ", false, true⟩
    SameLetters (trim named.level.toList) "warning".toList ∧
      SameLetters spelled.level.toList named.level.toList ∧ spelled.directives = "warn" ∧
      directive.directives = "App=WARNING" := by
  intro named spelled directive
  have hname : SameLetters (trim named.level.toList) "warning".toList := by
    unfold SameLetters
    decide
  have hspelled : SameLetters spelled.level.toList named.level.toList := by
    unfold SameLetters
    decide
  have hblank : trim directive.level.toList ≠ [] := by decide
  have hno : ∀ p ∈ levelNames, ¬ SameLetters (trim directive.level.toList) p.1.toList := by
    unfold SameLetters
    decide
  obtain ⟨-, -, -, hnamed, -⟩ := directives_canonical named
  obtain ⟨-, -, -, -, hself⟩ := directives_canonical directive
  refine ⟨hname, hspelled, hnamed ("warning", "warn") (by decide) hname spelled hspelled, ?_⟩
  exact (hself hblank hno).trans (by decide)

end LiveEdit.Logging
