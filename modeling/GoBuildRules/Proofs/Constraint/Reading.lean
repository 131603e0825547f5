import Mathlib.Data.List.TakeWhile
import GoBuildRules.Constraint.BuildLine
import GoBuildRules.Proofs.Text.Cut
import GoBuildRules.Proofs.Text.Lines

/-!
# Which build lines a file has

The build lines of a file stand in the run of blank lines and comments at its top (`IsRun`), and
of these count the ones that a blank line of the run follows (`Effective`).

* `exists_cutsRun`: every text can be cut where its run ends.
* `effective_iff`: the build lines are listed from the run alone.
* `read_append`: so what starts with another line and stands below the run does not matter.
* `read_exact`: all this together, and that build lines are read as they are printed.
-/

namespace GoBuildRules.BuildLine

variable {line : List Char} {lines run later : List (List Char)} {expression : String}

/-! ## The comments at the top of a file -/

/-- Whether a line can stand in the comments at the top of a file: without the blanks at its ends
it is empty or a `//` comment. -/
def IsOpening (line : List Char) : Prop :=
  Text.trim line = [] ∨ ['/', '/'] <+: Text.trim line

theorem isLeading_trim_iff : isLeading (Text.trim line) = true ↔ IsOpening line := by
  rw [isLeading, Bool.or_eq_true, List.isEmpty_iff, List.isPrefixOf_iff_prefix, IsOpening]

/-- The longest sequence of such lines with which the lines of a text start. -/
structure IsRun (lines run : List (List Char)) : Prop where
  isPrefix : run <+: lines
  opening : ∀ line ∈ run, IsOpening line
  longest : ∀ other, other <+: lines → (∀ line ∈ other, IsOpening line) → other <+: run

theorem isRun_takeWhile (lines : List (List Char)) :
    IsRun lines (lines.takeWhile fun line => isLeading (Text.trim line)) where
  isPrefix := List.takeWhile_prefix _
  opening line hline :=
    isLeading_trim_iff.mp (List.all_eq_true.mp List.all_takeWhile line hline)
  longest := by
    rintro other ⟨rest, rfl⟩ hother
    rw [List.takeWhile_append_of_pos fun line hline => isLeading_trim_iff.mpr (hother line hline)]
    exact List.prefix_append other _

theorem IsRun.unique {other : List (List Char)} (h : IsRun lines run) (hother : IsRun lines other) :
    run = other :=
  (hother.longest run h.isPrefix h.opening).eq_of_length_le
    (h.longest other hother.isPrefix hother.opening).length_le

theorem IsRun.eq_takeWhile (h : IsRun lines run) :
    run = lines.takeWhile fun line => isLeading (Text.trim line) :=
  h.unique (isRun_takeWhile lines)

/-! ## The lines that count -/

/-- Whether a line is a comment that starts with the field `+build`; the expression is its other
fields with single spaces between them. -/
def Gives (line : List Char) (expression : String) : Prop :=
  ∃ comment fields, Text.trim line = '/' :: '/' :: comment ∧
    Text.fields comment = "+build".toList :: fields ∧
    expression = " ".intercalate (fields.map String.ofList)

/-- The expressions of the build lines among the lines, of which those count that a blank line
follows. -/
inductive Effective : List (List Char) → List String → Prop
  | nil : Effective [] []
  | build {line later expression listed} (hgives : Gives line expression)
      (hblank : ∃ next ∈ later, Text.trim next = []) (h : Effective later listed) :
    Effective (line :: later) (expression :: listed)
  | other {line later listed}
      (hother : (∀ expression, ¬ Gives line expression) ∨ ∀ next ∈ later, Text.trim next ≠ [])
      (h : Effective later listed) :
    Effective (line :: later) listed

theorem ofLine?_trim_iff : ofLine? (Text.trim line) = some expression ↔ Gives line expression := by
  rw [ofLine?, Gives]
  constructor
  · intro h
    split at h
    · cases h
    · rename_i comment hcomment
      split at h
      · cases h
      · rename_i marker fields hfields
        split at h
        · rename_i hmarker
          subst hmarker
          exact ⟨comment, fields, Text.after?_eq_some_iff.mp hcomment, hfields,
            (Option.some.inj h).symm⟩
        · cases h
  · rintro ⟨comment, fields, hline, hfields, rfl⟩
    have hafter : Text.after? ['/', '/'] (Text.trim line) = some comment :=
      Text.after?_eq_some_iff.mpr hline
    simp only [hafter, hfields, if_true]

/-- The expressions of trimmed lines, up to the last one that is empty. -/
def listed (trimmed : List (List Char)) : List String :=
  (trimmed.reverse.dropWhile fun line => !line.isEmpty).reverse.filterMap ofLine?

theorem listed_cons (line : List Char) (later : List (List Char)) :
    listed (line :: later) =
      (if [] ∈ later then (ofLine? line).toList else []) ++ listed later := by
  rw [listed, listed, List.reverse_cons, List.dropWhile_append]
  -- A line counts when a blank line is still to come, which is where the last run is cut off.
  by_cases hblank : [] ∈ later
  · have hne : (later.reverse.dropWhile fun line => !line.isEmpty) ≠ [] := fun hnil => by
      simpa using List.dropWhile_eq_nil_iff.mp hnil [] (List.mem_reverse.mpr hblank)
    rw [if_pos hblank, if_neg (by simpa using hne), List.reverse_append, List.reverse_singleton,
      List.filterMap_append, List.filterMap_cons, List.filterMap_nil]
    cases ofLine? line <;> rfl
  · have hnil : (later.reverse.dropWhile fun line => !line.isEmpty) = [] := by
      refine List.dropWhile_eq_nil_iff.mpr fun line hline => ?_
      have hne : line ≠ [] := fun h => hblank (h ▸ List.mem_reverse.mp hline)
      simpa using hne
    rw [if_neg hblank, hnil]
    cases line <;> rfl

/-- Which expressions count is decided line by line. -/
theorem effective_iff {expressions : List String} :
    Effective run expressions ↔ listed (run.map Text.trim) = expressions := by
  have hblank : ∀ later : List (List Char),
      [] ∈ later.map Text.trim ↔ ∃ next ∈ later, Text.trim next = [] := fun _ => List.mem_map
  -- Both sides are read from the first line on; `listed_cons` says what one line adds.
  constructor
  · intro h
    induction h with
    | nil => rfl
    | build hgives hnext _ ih =>
      rw [List.map_cons, listed_cons, if_pos ((hblank _).mpr hnext), ofLine?_trim_iff.mpr hgives,
        ih]
      rfl
    | @other line later _ hother _ ih =>
      rw [List.map_cons, listed_cons, ih]
      split
      · rename_i hmem
        rcases hother with hnone | hnone
        · have hline : ofLine? (Text.trim line) = none :=
            Option.eq_none_iff_forall_ne_some.mpr fun expression h =>
              hnone expression (ofLine?_trim_iff.mp h)
          rw [hline]
          rfl
        · obtain ⟨next, hnext, heq⟩ := (hblank later).mp hmem
          exact absurd heq (hnone next hnext)
      · rfl
  · intro h
    induction run generalizing expressions with
    | nil =>
      subst h
      exact .nil
    | cons line later ih =>
      rw [List.map_cons, listed_cons] at h
      split at h
      · rename_i hmem
        cases hline : ofLine? (Text.trim line) with
        | none =>
          rw [hline] at h
          refine .other (.inl fun expression hgives => ?_) (ih h)
          rw [ofLine?_trim_iff.mpr hgives] at hline
          cases hline
        | some expression =>
          rw [hline] at h
          subst h
          exact .build (ofLine?_trim_iff.mp hline) ((hblank later).mp hmem) (ih rfl)
      · rename_i hmem
        exact .other (.inr fun next hnext heq => hmem ((hblank later).mpr ⟨next, hnext, heq⟩))
          (ih h)

/-- The build lines are those of the run at the top. -/
theorem read_of_isRun {content : String} (h : IsRun (Text.lines content.toList) run) :
    read content = listed (run.map Text.trim) := by
  rw [h.eq_takeWhile, read, listed, List.takeWhile_map]
  rfl

/-! ## What stands below -/

/-- A text is cut where the run at its top ends: at the start of a line, or at the very end. -/
structure CutsRun (content top code : List Char) : Prop where
  eq_append : content = top ++ code
  isRun : IsRun (Text.lines content) (Text.lines top)
  endsLine : code ≠ [] → Text.EndsLine top

/-- The text is empty or starts with a line that cannot stand in the comments at the top. -/
def StartsOutside (code : List Char) : Prop :=
  ∀ line ∈ (Text.lines code).head?, ¬ IsOpening line

theorem exists_cutsRun (content : List Char) : ∃ top code, CutsRun content top code := by
  obtain ⟨top, code, heq, hlines, hends⟩ :=
    Text.exists_cut_of_takeWhile (fun line => isLeading (Text.trim line)) content
  exact ⟨top, code, heq, hlines ▸ isRun_takeWhile _, hends⟩

/-- What stands below the run starts with a line that does not belong to it. -/
theorem CutsRun.startsOutside {content top code : List Char} (h : CutsRun content top code) :
    StartsOutside code := by
  obtain ⟨rfl, hrun, hends⟩ := h
  rcases eq_or_ne code [] with rfl | hne
  · nofun
  rw [(hends hne).lines_append] at hrun
  intro line hline hopening
  obtain ⟨below, hbelow⟩ := List.head?_eq_some_iff.mp hline
  -- Otherwise the run would be longer.
  have hlonger : Text.lines top ++ [line] <+: Text.lines top := by
    refine hrun.longest _ ⟨below, ?_⟩ fun other hother => ?_
    · rw [hbelow, List.append_assoc, List.singleton_append]
    · rcases List.mem_append.mp hother with hmem | hmem
      · exact hrun.opening other hmem
      · exact List.mem_singleton.mp hmem ▸ hopening
  have hlength := hlonger.length_le
  rw [List.length_append, List.length_singleton] at hlength
  omega

theorem startsOutside_cons {c : Char} {cs : List Char} (hblank : Text.isBlank c = false)
    (hslash : c ≠ '/') : StartsOutside (c :: cs) := by
  have hfeed : (c != '\n') = true := by
    rw [bne_iff_ne]
    rintro rfl
    exact absurd hblank (by decide)
  obtain ⟨first, rest, hlines, htrim⟩ := Text.exists_lines_eq_cons (List.cons_ne_nil c cs)
  rw [List.takeWhile_cons_of_pos (p := (· != '\n')) hfeed, Text.trim_cons hblank] at htrim
  rw [StartsOutside, hlines]
  rintro _ ⟨⟩ (hnil | hcomment)
  · exact List.cons_ne_nil _ _ (htrim ▸ hnil)
  · obtain ⟨below, hbelow⟩ := htrim ▸ hcomment
    exact hslash (List.cons.inj hbelow).1.symm

theorem takeWhile_append_of_head {α : Type} {p : α → Bool} {xs ys : List α}
    (h : ∀ y ∈ ys.head?, p y = false) : (xs ++ ys).takeWhile p = xs.takeWhile p := by
  induction xs with
  | nil =>
    cases ys with
    | nil => rfl
    | cons y ys => exact List.takeWhile_cons_of_neg (by simp [h y rfl])
  | cons x xs ih =>
    rw [List.cons_append, List.takeWhile_cons, List.takeWhile_cons, ih]

/-- The build lines of a file stand above the first line outside the run. -/
theorem read_append {top code : List Char} (htop : Text.EndsLine top) (hcode : StartsOutside code) :
    read (String.ofList (top ++ code)) = read (String.ofList top) := by
  have hhead : ∀ line ∈ ((Text.lines code).map Text.trim).head?, isLeading line = false := by
    rw [List.head?_map]
    rintro _ hmem
    obtain ⟨line, hline, rfl⟩ := Option.map_eq_some_iff.mp hmem
    exact Bool.eq_false_iff.mpr fun h => hcode line hline (isLeading_trim_iff.mp h)
  rw [read, read, String.toList_ofList, String.toList_ofList, htop.lines_append, List.map_append,
    takeWhile_append_of_head hhead]

/-! ## Printing build lines -/

/-- An expression that is its fields with single spaces between them. -/
structure Expression where
  text : String
  normal : " ".intercalate ((Text.fields text.toList).map String.ofList) = text

namespace Expression

/-- The line on which an expression is printed. -/
def chars (e : Expression) : List Char :=
  "// +build ".toList ++ e.text.toList

theorem feed_notMem_chars (e : Expression) : '\n' ∉ e.chars := by
  have hmarker : '\n' ∉ "// +build ".toList := by decide
  have hspace : ∀ c ∈ [' '], c ≠ '\n' := by decide
  have hfields : ∀ c ∈ [' '].intercalate (Text.fields e.text.toList), c ≠ '\n' := by
    refine Text.forall_mem_intercalate hspace fun run hrun c hc => ?_
    have hblank := Text.eq_false_of_mem_splitOnP (List.mem_filter.mp hrun).1 c hc
    rintro rfl
    exact absurd hblank (by decide)
  have hnormal := congrArg String.toList e.normal
  rw [String.toList_intercalate, List.map_map] at hnormal
  -- An expression is its own fields joined by single spaces, so it has no other blanks.
  have htext : [' '].intercalate (Text.fields e.text.toList) = e.text.toList := by
    simpa [Function.comp_def] using hnormal
  rw [htext] at hfields
  intro hmem
  rcases List.mem_append.mp hmem with hmem | hmem
  · exact hmarker hmem
  · exact hfields _ hmem rfl

/-- A printed line gives its expression, whatever blanks were taken from its end. -/
theorem gives (e : Expression) {line : List Char} (h : Text.trim line = Text.trim e.chars) :
    Gives line e.text := by
  have hfields : Text.fields (" +build ".toList ++ e.text.toList) =
      "+build".toList :: Text.fields e.text.toList := by
    have hspace : ∀ c ∈ [' '], Text.isBlank c = true := List.forall_mem_singleton.mpr (by decide)
    have hmarker : Text.fields ("+build".toList ++ ([' '] ++ e.text.toList)) =
        "+build".toList :: Text.fields e.text.toList :=
      Text.fields_run_append (by decide) (by decide) (List.cons_ne_nil ' ' []) hspace
    exact (Text.fields_blanks_append hspace).trans hmarker
  have htrim : Text.trim e.chars = '/' :: '/' ::
      ((" +build ".toList ++ e.text.toList).reverse.dropWhile Text.isBlank).reverse := by
    show Text.trim ('/' :: '/' :: (" +build ".toList ++ e.text.toList)) = _
    rw [Text.trim_cons_cons (by decide) (by decide), Text.trim_cons (by decide)]
  refine ⟨_, Text.fields e.text.toList, h.trans htrim, ?_, e.normal.symm⟩
  rw [Text.fields_dropWhile_reverse, hfields]

end Expression

/-- Expressions printed as build lines, and a blank line. -/
def print (expressions : List Expression) : String :=
  String.ofList (expressions.flatMap (fun e => e.chars ++ ['\n']) ++ ['\n'])

theorem lines_print (expressions : List Expression) :
    Text.lines (print expressions).toList =
      expressions.map (fun e => Text.dropReturn e.chars) ++ [[]] := by
  rw [print, String.toList_ofList]
  induction expressions with
  | nil => decide
  | cons e expressions ih =>
    rw [List.flatMap_cons, List.append_assoc, List.append_assoc, List.singleton_append,
      Text.lines_line_append e.feed_notMem_chars, ih]
    rfl

/-- All lines that are printed belong to the run at the top. -/
theorem isRun_print (expressions : List Expression) :
    IsRun (Text.lines (print expressions).toList) (Text.lines (print expressions).toList) where
  isPrefix := List.prefix_refl _
  opening := by
    rw [lines_print]
    intro line hline
    rcases List.mem_append.mp hline with hline | hline
    · obtain ⟨e, -, rfl⟩ := List.mem_map.mp hline
      obtain ⟨comment, -, hcomment, -⟩ := e.gives (Text.trim_dropReturn e.chars)
      exact .inr ⟨comment, hcomment.symm⟩
    · rw [List.mem_singleton.mp hline]
      exact .inl rfl
  longest _ hother _ := hother

theorem effective_print (expressions : List Expression) :
    Effective (Text.lines (print expressions).toList) (expressions.map Expression.text) := by
  rw [lines_print]
  induction expressions with
  | nil => exact .other (.inr fun _ h => absurd h List.not_mem_nil) .nil
  | cons e expressions ih =>
    exact .build (e.gives (Text.trim_dropReturn e.chars)) ⟨[], by simp, rfl⟩ ih

/-- What is printed is read again before a package clause. -/
theorem read_print (expressions : List Expression) (rest : String) :
    read (print expressions ++ "package" ++ rest) = expressions.map Expression.text := by
  have hends : Text.EndsLine (print expressions).toList := by
    rw [print, String.toList_ofList]
    exact Text.endsLine_concat _
  have hpackage : StartsOutside ("package".toList ++ rest.toList) :=
    startsOutside_cons (by decide) (by decide)
  -- The package clause starts with what is neither a comment nor blank, so the run ends above it.
  have hread := read_append hends hpackage
  rw [String.ofList_toList, ← List.append_assoc, ← String.toList_append, ← String.toList_append,
    String.ofList_toList] at hread
  rw [hread, read_of_isRun (isRun_print expressions)]
  exact effective_iff.mp (effective_print expressions)

/-- **The build lines of a file are read exactly.** A text is cut where the run of blank lines and
comments at its top ends. The lines of the run that are build lines and that a blank line of the run
follows are listed in order, nothing that starts with a line outside the run changes this, and
expressions printed as build lines above a package clause are read again. -/
theorem read_lists_effective (content : String) (expressions : List Expression) (rest : String) :
    (∃ top code, CutsRun content.toList top code) ∧
      (∀ top code, CutsRun content.toList top code →
        (∀ listed, read content = listed ↔ Effective (Text.lines top) listed) ∧
          (code ≠ [] → ∀ other, StartsOutside other →
            read (String.ofList (top ++ other)) = read content)) ∧
      read (print expressions ++ "package" ++ rest) = expressions.map Expression.text := by
  refine ⟨exists_cutsRun _, fun top code hcut => ⟨fun listed => ?_, fun hcode other hother => ?_⟩,
    read_print expressions rest⟩
  · rw [effective_iff, read_of_isRun hcut.isRun]
  · have hends := hcut.endsLine hcode
    have hcontent := read_append hends hcut.startsOutside
    rw [← hcut.eq_append, String.ofList_toList] at hcontent
    rw [read_append hends hother, hcontent]

/-- Two blocks of comments with a build line each, of which the second has no blank line below. -/
theorem read_lists_effective_twoBlocks :
    let content := "\t// +build linux,!arm\t cgo \r\n//notes\n\n// +build arm\npackage d\n"
    let top := "\t// +build linux,!arm\t cgo \r\n//notes\n\n// +build arm\n".toList
    let code := "package d\n".toList
    let other := "func f() {}\n\n// +build arm\n\n".toList
    CutsRun content.toList top code ∧ Effective (Text.lines top) ["linux,!arm cgo"] ∧
      StartsOutside other ∧ read (String.ofList (top ++ other)) = read content := by
  intro content top code other
  have hrun : Text.lines top =
      (Text.lines content.toList).takeWhile fun line => isLeading (Text.trim line) := by
    decide +kernel
  have hends : Text.EndsLine top := by
    rintro _ ⟨⟩
    rfl
  have hcut : CutsRun content.toList top code :=
    ⟨by decide +kernel, hrun ▸ isRun_takeWhile _, fun _ => hends⟩
  have hother : StartsOutside other := startsOutside_cons (by decide) (by decide)
  obtain ⟨-, hall, -⟩ := read_lists_effective content [] ""
  obtain ⟨hlisted, hreplaced⟩ := hall top code hcut
  exact ⟨hcut, (hlisted _).mp (by decide +kernel), hother,
    hreplaced (List.cons_ne_nil _ _) other hother⟩

end GoBuildRules.BuildLine
