import GoBuildRules.Cgo.Directive
import GoBuildRules.Proofs.Cgo.Words
import GoBuildRules.Proofs.Text.Cut
import GoBuildRules.Proofs.Text.Lines

/-!
# Printing directives

A directive (`Directive`) is written on a line, with blanks between its fields, and other lines
(`PreambleLine.other`) may stand before and after it. Parsing the text gives back the directives in
order, each with its arguments expanded (`CgoFlags.parse_print`).

Each reader of a directive has its lemma about what is printed: `Directive.directive?_chars` for the
marker and the blanks around the line, `Directive.verb?_tagChars` for the tags and the verb,
`Directive.split_argChars` for the arguments and `SourceDir.expand_chars` for one of them.
-/

namespace GoBuildRules

/-! ## Directives -/

/-- Blanks on one line. -/
structure Gap where
  chars : List Char
  blank : ∀ c ∈ chars, Text.isBlank c = true
  feed : '\n' ∉ chars

theorem Gap.notMem (gap : Gap) {c : Char} (h : Text.isBlank c = false) : c ∉ gap.chars := by
  intro hmem
  rw [gap.blank c hmem] at h
  cases h

/-- One of the tags on which flags depend. -/
structure Tag where
  chars : List Char
  ne_nil : chars ≠ []
  blank : ∀ c ∈ chars, Text.isBlank c = false
  colon : ':' ∉ chars

/-- An argument of a directive, by its parts between the places for the directory. -/
structure Argument where
  pieces : List (List Char)
  safe : ∀ piece ∈ pieces, ∀ c ∈ piece, SourceDir.isSafe c = true
  blank : ∀ piece ∈ pieces, ∀ c ∈ piece, Text.isBlank c = false
  ne_nil : SourceDir.marker.intercalate pieces ≠ []

/-- The argument as it is written. -/
def Argument.chars (a : Argument) : List Char :=
  SourceDir.marker.intercalate a.pieces

/-- The argument with the directory in its places. -/
def Argument.expanded (dir : String) (a : Argument) : String :=
  String.ofList ((SourceDir.shown dir).intercalate a.pieces)

/-- Between its parts an argument has the directory, and a `.` when the directory is empty. -/
theorem Argument.toList_expanded (dir : String) (a : Argument) :
    (a.expanded dir).toList = (if dir = "" then "." else dir).toList.intercalate a.pieces := by
  rw [expanded, String.toList_ofList, SourceDir.shown]
  simp only [String.isEmpty_iff]
  split <;> rfl

/-- Which tool the flags of a directive are for. -/
inductive Verb where
  | cflags
  | cppflags
  | cxxflags
  | ldflags
  deriving DecidableEq, Repr

/-- The verb as it is written. -/
def Verb.text : Verb → String
  | cflags => "CFLAGS"
  | cppflags => "CPPFLAGS"
  | cxxflags => "CXXFLAGS"
  | ldflags => "LDFLAGS"

theorem Verb.toList_text_ne_nil (verb : Verb) : verb.text.toList ≠ [] := by
  cases verb <;> decide

theorem Verb.isBlank_of_mem_text (verb : Verb) :
    ∀ c ∈ verb.text.toList, Text.isBlank c = false := by
  cases verb <;> decide

/-- A directive with the blanks that it is written with. Every tag is followed by blanks, and every
argument follows some, but for the first after the colon. -/
structure Directive where
  indent : Gap
  /-- The blank directly after `#cgo`. -/
  separator : Char
  separator_eq : separator = ' ' ∨ separator = '\t'
  gap : Gap
  tags : List (Tag × Gap)
  tags_gap : ∀ tag ∈ tags, tag.2.chars ≠ []
  verb : Verb
  verbGap : Gap
  args : List (Gap × Argument)
  args_gap : ∀ arg ∈ args.tail, arg.1.chars ≠ []
  trailing : Gap

namespace Directive

/-- The tags as they are written. -/
def tagChars (tags : List (Tag × Gap)) : List Char :=
  tags.flatMap fun (tag, gap) => tag.chars ++ gap.chars

/-- The arguments as they are written. -/
def argChars (args : List (Gap × Argument)) : List Char :=
  args.flatMap fun (gap, arg) => gap.chars ++ arg.chars

/-- The fields of the directive, from the first tag on. -/
def body (d : Directive) : List Char :=
  tagChars d.tags ++ (d.verb.text.toList ++ d.verbGap.chars) ++ ':' :: argChars d.args

/-- The line of the directive. -/
def chars (d : Directive) : List Char :=
  d.indent.chars ++ ("#cgo".toList ++ d.separator :: (d.gap.chars ++ d.body)) ++ d.trailing.chars

/-- The flags of the directive, in the directory. -/
def opt (dir : String) (d : Directive) : TaggedOpt where
  tags := " ".intercalate (d.tags.map fun (tag, _) => String.ofList tag.chars)
  opts := " ".intercalate (d.args.map fun (_, arg) => arg.expanded dir)

end Directive

/-- A line of a comment. -/
inductive PreambleLine where
  | directive (d : Directive)
  /-- A line on which no `#cgo` with a blank after it comes first. -/
  | other (chars : List Char) (feed : '\n' ∉ chars)
      (h : ∀ c rest, Text.trim chars = "#cgo".toList ++ c :: rest → c ≠ ' ' ∧ c ≠ '\t')

namespace PreambleLine

/-- The line as it is written. -/
def chars : PreambleLine → List Char
  | directive d => d.chars
  | other chars _ _ => chars

/-- The directive on the line, if there is one. -/
def directive? : PreambleLine → Option Directive
  | directive d => some d
  | other _ _ _ => none

end PreambleLine

/-! ## Arguments -/

namespace SourceDir

theorem chunks_marker (a : Argument) : Text.chunks marker a.chars = a.pieces := by
  have hbrace : ∀ piece ∈ a.pieces, '\x7b' ∉ piece := fun piece hpiece hmem =>
    absurd (a.safe piece hpiece _ hmem) (by decide)
  have hpieces : a.pieces ≠ [] := by
    intro hnil
    have hne := a.ne_nil
    rw [hnil] at hne
    exact hne rfl
  exact Text.chunks_intercalate (c := '$') (by decide) hpieces hbrace

theorem shown_ne_nil (dir : String) : shown dir ≠ [] := by
  rw [shown]
  split
  · exact List.cons_ne_nil _ _
  · rename_i hempty
    exact fun hnil => hempty (String.isEmpty_iff.mpr (String.toList_eq_nil_iff.mp hnil))

theorem all_shown {dir : String} (hdir : ∀ c ∈ dir.toList, isSafe c = true ∨ c = ' ') :
    (shown dir).all (fun c => isSafe c || c == ' ') = true := by
  rw [shown]
  split
  · decide
  · simpa using hdir

/-- An argument is expanded as it is shown in the directory, and it is safe there. -/
theorem expand_chars (a : Argument) {dir : String}
    (hdir : ∀ c ∈ dir.toList, isSafe c = true ∨ c = ' ') :
    expand (String.ofList a.chars) dir = ⟨a.expanded dir, true⟩ := by
  have hall : ∀ piece ∈ a.pieces, piece.all isSafe = true := fun piece hpiece =>
    List.all_eq_true.mpr (a.safe piece hpiece)
  rw [expand, String.toList_ofList, chunks_marker]
  split
  · rename_i whole hpieces
    have hwhole : a.chars = whole := by
      rw [Argument.chars, hpieces, List.intercalate_singleton]
    have hne : whole.isEmpty = false := by
      rw [← hwhole]
      exact List.isEmpty_eq_false_iff.mpr a.ne_nil
    have hsafe : whole.all isSafe = true := hall whole (hpieces ▸ List.mem_singleton_self whole)
    rw [hwhole, Argument.expanded, hpieces, List.intercalate_singleton, hne, hsafe]
    rfl
  · rename_i hpieces
    -- With at least two pieces there is a place for the directory, which is never shown as nothing.
    have htext : (shown dir).intercalate a.pieces ≠ [] := by
      match hlist : a.pieces with
      | [] => exact absurd (congrArg (marker.intercalate ·) hlist) a.ne_nil
      | [whole] => exact absurd hlist (hpieces whole)
      | piece :: next :: rest =>
        rw [List.intercalate_cons_of_ne_nil (List.cons_ne_nil _ _)]
        simp [shown_ne_nil dir]
    have hpiecesSafe : a.pieces.all (fun chunk => chunk.all isSafe) = true :=
      List.all_eq_true.mpr hall
    simp only [hpiecesSafe, all_shown hdir, List.isEmpty_eq_false_iff.mpr htext]
    rfl

end SourceDir

namespace Argument

theorem chars_ne_nil (a : Argument) : a.chars ≠ [] := a.ne_nil

/-- The characters of an argument are plain. -/
theorem plain (a : Argument) : ∀ c ∈ a.chars, Words.IsPlain c := by
  have hmarker : ∀ c ∈ SourceDir.marker, Words.IsPlain c := by decide
  refine Text.forall_mem_intercalate hmarker fun piece hpiece c hc => ?_
  have hne : ∀ d, SourceDir.isSafe d = false → c ≠ d := by
    rintro d hd rfl
    rw [a.safe piece hpiece c hc] at hd
    cases hd
  exact ⟨hne _ (by decide), hne _ (by decide), hne _ (by decide), a.blank piece hpiece c hc⟩

end Argument

namespace Directive

variable {args : List (Gap × Argument)}

/-- Arguments do not end in a blank. -/
theorem getLast?_append_argChars {cs : List Char}
    (h : ∀ c ∈ cs.getLast?, Text.isBlank c = false) (args : List (Gap × Argument)) :
    ∀ c ∈ (cs ++ argChars args).getLast?, Text.isBlank c = false := by
  induction args generalizing cs with
  | nil =>
    rw [argChars, List.flatMap_nil, List.append_nil]
    exact h
  | cons arg args ih =>
    obtain ⟨gap, arg⟩ := arg
    have harg : ∀ c ∈ (cs ++ gap.chars ++ arg.chars).getLast?, Text.isBlank c = false := by
      intro c hc
      rw [List.getLast?_append_of_ne_nil _ arg.chars_ne_nil] at hc
      exact (arg.plain c (List.mem_of_getLast? hc)).2.2.2
    have hrest := ih harg
    simpa [argChars] using hrest

/-- Arguments after a first word are words of their own. -/
theorem scan_argChars (hgap : ∀ arg ∈ args, arg.1.chars ≠ []) (word : List Char) :
    Words.scan none (some word) (argChars args) =
      .ok (word :: args.map fun (_, arg) => arg.chars) := by
  induction args generalizing word with
  | nil => rfl
  | cons arg args ih =>
    obtain ⟨gap, arg⟩ := arg
    have hgap_ne : gap.chars ≠ [] := hgap (gap, arg) List.mem_cons_self
    have hrest := ih (fun a ha => hgap a (List.mem_cons_of_mem _ ha)) arg.chars
    obtain ⟨b, blanks, hblanks⟩ := List.exists_cons_of_ne_nil hgap_ne
    have hblank : ∀ c ∈ b :: blanks, Text.isBlank c = true := hblanks ▸ gap.blank
    -- A gap is at least one blank, which ends the word before it.
    have hchars : argChars ((gap, arg) :: args) =
        b :: (blanks ++ (arg.chars ++ argChars args)) := by
      simp [argChars, hblanks]
    rw [hchars, Words.scan_blank (hblank b List.mem_cons_self),
      Words.scan_blanks fun c hc => hblank c (List.mem_cons_of_mem _ hc),
      Words.scan_run arg.chars_ne_nil arg.plain, hrest]
    rfl

/-- The words after the colon are the arguments. -/
theorem split_argChars (hgap : ∀ arg ∈ args.tail, arg.1.chars ≠ []) :
    Words.split (String.ofList (Text.trim (argChars args))) =
      .ok (args.map fun (_, arg) => String.ofList arg.chars) := by
  cases args with
  | nil => rfl
  | cons arg args =>
    obtain ⟨gap, arg⟩ := arg
    have hgap : ∀ arg ∈ args, arg.1.chars ≠ [] := hgap
    have hblank : ∀ c ∈ arg.chars, Text.isBlank c = false := fun c hc => (arg.plain c hc).2.2.2
    have hhead : ∀ c ∈ (arg.chars ++ argChars args).head?, Text.isBlank c = false := by
      intro c hc
      rw [List.head?_append_of_ne_nil _ arg.chars_ne_nil] at hc
      exact hblank c (List.mem_of_head? hc)
    have hlast := getLast?_append_argChars (fun c hc => hblank c (List.mem_of_getLast? hc)) args
    have hchars : argChars ((gap, arg) :: args) =
        gap.chars ++ (arg.chars ++ argChars args) := by
      simp [argChars]
    -- Trimming takes the first gap away and nothing at the end, where the last argument stands.
    have htrim : Text.trim (argChars ((gap, arg) :: args)) = arg.chars ++ argChars args := by
      rw [hchars, Text.trim_blanks_append gap.blank, Text.trim_eq_self hhead hlast]
    rw [htrim, Words.split, String.toList_ofList, Words.scan_run arg.chars_ne_nil arg.plain,
      scan_argChars hgap]
    simp [Except.map]

/-- The arguments of a directive are shown with the directory in their places. -/
theorem arguments?_argChars (hgap : ∀ arg ∈ args.tail, arg.1.chars ≠ []) {dir : String}
    (hdir : ∀ c ∈ dir.toList, SourceDir.isSafe c = true ∨ c = ' ') :
    CgoFlags.arguments? (argChars args) dir =
      some (" ".intercalate (args.map fun (_, arg) => arg.expanded dir)) := by
  have hexpanded : (args.map fun (_, arg) => String.ofList arg.chars).map
      (fun word => SourceDir.expand word dir) =
        args.map fun (_, arg) => ⟨arg.expanded dir, true⟩ := by
    rw [List.map_map]
    exact List.map_congr_left fun arg _ => SourceDir.expand_chars arg.2 hdir
  rw [CgoFlags.arguments?, split_argChars hgap]
  simp only [hexpanded]
  rw [if_pos (by simp), List.map_map]
  rfl

variable {tags : List (Tag × Gap)}

theorem fields_tagChars (hgap : ∀ tag ∈ tags, tag.2.chars ≠ []) (cs : List Char) :
    Text.fields (tagChars tags ++ cs) =
      (tags.map fun (tag, _) => tag.chars) ++ Text.fields cs := by
  induction tags with
  | nil => rfl
  | cons tag tags ih =>
    obtain ⟨tag, gap⟩ := tag
    have hgap_ne : gap.chars ≠ [] := hgap (tag, gap) List.mem_cons_self
    have hrest := ih fun t ht => hgap t (List.mem_cons_of_mem _ ht)
    have hchars : tagChars ((tag, gap) :: tags) ++ cs =
        tag.chars ++ (gap.chars ++ (tagChars tags ++ cs)) := by
      simp [tagChars]
    rw [hchars, Text.fields_run_append tag.ne_nil tag.blank hgap_ne gap.blank, hrest]
    rfl

/-- The fields before the colon are the tags and the verb. -/
theorem verb?_tagChars (hgap : ∀ tag ∈ tags, tag.2.chars ≠ []) (verb : Verb) (verbGap : Gap) :
    CgoFlags.verb? (tagChars tags ++ (verb.text.toList ++ verbGap.chars)) =
      some (" ".intercalate (tags.map fun (tag, _) => String.ofList tag.chars), verb.text) := by
  have hne := verb.toList_text_ne_nil
  have hblank := verb.isBlank_of_mem_text
  have hverb : Text.fields (verb.text.toList ++ verbGap.chars) = [verb.text.toList] := by
    by_cases hgap : verbGap.chars = []
    · rw [hgap, List.append_nil, Text.fields_run hne hblank]
    · have hfields : Text.fields (verb.text.toList ++ (verbGap.chars ++ [])) =
          verb.text.toList :: Text.fields [] :=
        Text.fields_run_append hne hblank hgap verbGap.blank
      rwa [List.append_nil, Text.fields_nil] at hfields
  rw [CgoFlags.verb?, fields_tagChars hgap, hverb]
  simp [Function.comp_def]

/-! ## Lines -/

/-- A line does not end in a blank after its last field, for the colon is none. -/
theorem getLast?_append_body (d : Directive) (cs : List Char) :
    ∀ c ∈ (cs ++ d.body).getLast?, Text.isBlank c = false := by
  have hcolon : ∀ before : List Char, ∀ c ∈ (before ++ [':']).getLast?, Text.isBlank c = false := by
    intro before c hc
    rw [List.getLast?_concat] at hc
    obtain rfl := Option.mem_some_iff.mp hc
    decide
  have hlast := getLast?_append_argChars
    (hcolon (cs ++ (tagChars d.tags ++ (d.verb.text.toList ++ d.verbGap.chars)))) d.args
  simpa [body] using hlast

/-- The fields start with the first tag or, without tags, with the verb. -/
theorem head?_body (d : Directive) : ∀ c ∈ d.body.head?, Text.isBlank c = false := by
  intro c hc
  cases htags : d.tags with
  | nil =>
    have hbody : d.body.head? = d.verb.text.toList.head? := by
      simp [body, htags, tagChars, List.head?_append_of_ne_nil _ d.verb.toList_text_ne_nil]
    rw [hbody] at hc
    exact d.verb.isBlank_of_mem_text c (List.mem_of_head? hc)
  | cons tag tags =>
    obtain ⟨tag, gap⟩ := tag
    have hbody : d.body.head? = tag.chars.head? := by
      simp [body, htags, tagChars, List.head?_append_of_ne_nil _ tag.ne_nil]
    rw [hbody] at hc
    exact tag.blank c (List.mem_of_head? hc)

/-- The line without the blanks around it. -/
theorem trim_chars (d : Directive) :
    Text.trim d.chars = "#cgo".toList ++ d.separator :: (d.gap.chars ++ d.body) := by
  have hcore : Text.trim ("#cgo".toList ++ d.separator :: (d.gap.chars ++ d.body)) =
      "#cgo".toList ++ d.separator :: (d.gap.chars ++ d.body) := by
    refine Text.trim_eq_self (fun c hc => ?_) ?_
    · obtain rfl := Option.mem_some_iff.mp hc
      decide
    · simpa using d.getLast?_append_body ("#cgo".toList ++ d.separator :: d.gap.chars)
  rw [chars, Text.trim_append_blanks d.trailing.blank, Text.trim_blanks_append d.indent.blank,
    hcore]

/-- The line of a directive is recognized, however the blanks at its ends have been changed. -/
theorem directive?_chars (d : Directive) {line : List Char}
    (hline : Text.trim line = Text.trim d.chars) : CgoFlags.directive? line = some d.body := by
  have hafter : Text.after? "#cgo".toList (Text.trim line) =
      some (d.separator :: (d.gap.chars ++ d.body)) :=
    Text.after?_eq_some_iff.mpr (hline.trans d.trim_chars)
  have hbody : Text.trim (d.gap.chars ++ d.body) = d.body := by
    rw [Text.trim_blanks_append d.gap.blank]
    exact Text.trim_eq_self d.head?_body (d.getLast?_append_body [])
  rw [CgoFlags.directive?, hafter]
  simp only [if_pos d.separator_eq, hbody]

/-- The flags of a directive. -/
def flags (dir : String) (d : Directive) : CgoFlags :=
  if d.verb = .ldflags then { clinkopts := [d.opt dir] } else { copts := [d.opt dir] }

/-- A line is read as the directive that is written on it. -/
theorem ofLine_chars (d : Directive) {dir : String} {line : List Char}
    (hdir : ∀ c ∈ dir.toList, SourceDir.isSafe c = true ∨ c = ' ')
    (hline : Text.trim line = Text.trim d.chars) :
    CgoFlags.ofLine dir line = .ok (d.flags dir) := by
  have hcolon : ':' ∉ tagChars d.tags ++ (d.verb.text.toList ++ d.verbGap.chars) := by
    have hverb : ':' ∉ d.verb.text.toList := by cases d.verb <;> decide
    have htags : ':' ∉ tagChars d.tags := by
      simp only [tagChars, List.mem_flatMap, List.mem_append, not_exists, not_and, not_or]
      exact fun tag _ => ⟨tag.1.colon, tag.2.notMem (by decide)⟩
    simp only [List.mem_append, not_or]
    exact ⟨htags, hverb, d.verbGap.notMem (by decide)⟩
  have hcut : Text.cutAt [':'] d.body =
      some (tagChars d.tags ++ (d.verb.text.toList ++ d.verbGap.chars), argChars d.args) :=
    Text.cutAt_singleton hcolon (argChars d.args)
  rw [CgoFlags.ofLine]
  simp only [d.directive?_chars hline, hcut, verb?_tagChars d.tags_gap,
    arguments?_argChars d.args_gap hdir, flags, opt]
  cases d.verb <;> rfl

theorem feed_notMem_chars (d : Directive) : '\n' ∉ d.chars := by
  have hseparator : '\n' ≠ d.separator := by
    rcases d.separator_eq with h | h <;> rw [h] <;> decide
  have hverb : '\n' ∉ d.verb.text.toList := by cases d.verb <;> decide
  have htags : '\n' ∉ tagChars d.tags := by
    simp only [tagChars, List.mem_flatMap, List.mem_append, not_exists, not_and, not_or]
    refine fun tag _ => ⟨fun hmem => ?_, tag.2.feed⟩
    exact absurd (tag.1.blank _ hmem) (by decide)
  have hargs : '\n' ∉ argChars d.args := by
    simp only [argChars, List.mem_flatMap, List.mem_append, not_exists, not_and, not_or]
    refine fun arg _ => ⟨arg.1.feed, fun hmem => ?_⟩
    exact absurd (arg.2.plain _ hmem) (by decide)
  have hcgo : '\n' ∉ "#cgo".toList := by decide
  simp only [chars, body, List.mem_append, List.mem_cons, not_or]
  exact ⟨⟨d.indent.feed, hcgo, hseparator, d.gap.feed, ⟨htags, hverb, d.verbGap.feed⟩,
    by decide, hargs⟩, d.trailing.feed⟩

end Directive

namespace PreambleLine

/-- The flags of a line. -/
def flags (dir : String) (line : PreambleLine) : CgoFlags :=
  (line.directive?.map (Directive.flags dir)).getD {}

/-- A line is read as it was written. -/
theorem ofLine_chars (l : PreambleLine) {dir : String} {line : List Char}
    (hdir : ∀ c ∈ dir.toList, SourceDir.isSafe c = true ∨ c = ' ')
    (hline : Text.trim line = Text.trim l.chars) :
    CgoFlags.ofLine dir line = .ok (l.flags dir) := by
  cases l with
  | directive d => exact d.ofLine_chars hdir hline
  | other chars feed h =>
    have hline : Text.trim line = Text.trim chars := hline
    have hnone : CgoFlags.directive? line = none := by
      rw [CgoFlags.directive?, hline]
      split
      · rename_i c rest hafter
        obtain ⟨hspace, htab⟩ := h c rest (Text.after?_eq_some_iff.mp hafter)
        rw [if_neg (not_or.mpr ⟨hspace, htab⟩)]
      · rfl
    rw [CgoFlags.ofLine]
    simp only [hnone]
    rfl

/-- A line has no line feed in it. -/
theorem feed_notMem_chars (l : PreambleLine) : '\n' ∉ l.chars := by
  cases l with
  | directive d => exact d.feed_notMem_chars
  | other chars feed h => exact feed

end PreambleLine

namespace CgoFlags

variable {dir : String}

theorem mapM_ofLine_lines (lines : List PreambleLine)
    (hdir : ∀ c ∈ dir.toList, SourceDir.isSafe c = true ∨ c = ' ') :
    ∃ flags, (Text.lines (['\n'].intercalate (lines.map PreambleLine.chars))).mapM (ofLine dir) =
        .ok flags ∧
      flags.foldr append {} = (lines.map (PreambleLine.flags dir)).foldr append {} := by
  induction lines with
  | nil => exact ⟨[], rfl, rfl⟩
  | cons l lines ih =>
    cases lines with
    | nil =>
      have hfeed := l.feed_notMem_chars
      have hline := l.ofLine_chars hdir rfl
      rw [List.map_singleton, List.intercalate_singleton, Text.lines_of_notMem hfeed]
      split
      · rename_i hempty
        -- No line is read, and an empty one would have given no flags.
        rw [List.isEmpty_iff.mp hempty] at hline
        have hflags : l.flags dir = {} := (Except.ok.inj hline).symm
        refine ⟨[], rfl, ?_⟩
        rw [List.map_singleton, hflags]
        rfl
      · refine ⟨[l.flags dir], ?_, rfl⟩
        rw [List.mapM_cons, hline]
        rfl
    | cons next lines =>
      obtain ⟨flags, hflags, hfold⟩ := ih
      have hline := l.ofLine_chars hdir (Text.trim_dropReturn l.chars)
      have hne : (next :: lines).map PreambleLine.chars ≠ [] := List.cons_ne_nil _ _
      refine ⟨l.flags dir :: flags, ?_, congrArg (append (l.flags dir)) hfold⟩
      rw [List.map_cons, List.intercalate_cons_of_ne_nil hne, List.append_assoc,
        List.singleton_append, Text.lines_line_append l.feed_notMem_chars, List.mapM_cons, hline,
        hflags]
      rfl

/-- The flags of lines are those of their directives, for each tool in order. -/
theorem foldr_append_flags (lines : List PreambleLine) :
    (lines.map (PreambleLine.flags dir)).foldr append {} =
      let directives := lines.filterMap PreambleLine.directive?
      { copts := (directives.filter fun d => d.verb ≠ .ldflags).map (Directive.opt dir)
        clinkopts := (directives.filter fun d => d.verb = .ldflags).map (Directive.opt dir) } := by
  induction lines with
  | nil => rfl
  | cons l lines ih =>
    rw [List.map_cons, List.foldr_cons, ih]
    cases l with
    | directive d =>
      by_cases hverb : d.verb = .ldflags <;>
        simp [PreambleLine.flags, PreambleLine.directive?, Directive.flags, append, hverb]
    | other chars feed h => rfl

/-- **Parsing directives inverts printing them.** -/
theorem parse_print (lines : List PreambleLine) {dir : String}
    (hdir : ∀ c ∈ dir.toList, SourceDir.isSafe c = true ∨ c = ' ') :
    parse (String.ofList (['\n'].intercalate (lines.map PreambleLine.chars))) dir =
      let directives := lines.filterMap PreambleLine.directive?
      .ok {
        copts := (directives.filter fun d => d.verb ≠ .ldflags).map (Directive.opt dir)
        clinkopts := (directives.filter fun d => d.verb = .ldflags).map (Directive.opt dir) } := by
  obtain ⟨flags, hflags, hfold⟩ := mapM_ofLine_lines lines hdir
  rw [parse, String.toList_ofList, hflags]
  exact congrArg Except.ok (hfold.trans (foldr_append_flags lines))

/-- Two directives around a line of code; the first argument of the first holds two places for the
directory. -/
def spacedLines : List PreambleLine :=
  let gap : Gap := ⟨['\t', ' '], by decide, by decide⟩
  let linux : Tag := ⟨"linux,!arm".toList, by decide, by decide, by decide⟩
  let cgo : Tag := ⟨"cgo".toList, by decide, by decide, by decide⟩
  let twice : Argument :=
    ⟨["-X".toList, "/1,".toList, "/2".toList], by decide, by decide, by decide⟩
  let math : Argument := ⟨["-lm".toList], by decide, by decide, by decide⟩
  let compile : Directive :=
    { indent := gap, separator := ' ', separator_eq := .inl rfl, gap := gap
      tags := [(linux, gap), (cgo, gap)], tags_gap := by decide
      verb := .cflags, verbGap := gap
      args := [(gap, twice), (gap, math)], args_gap := by decide, trailing := gap }
  let link : Directive :=
    { indent := gap, separator := '\t', separator_eq := .inr rfl, gap := gap
      tags := [], tags_gap := nofun, verb := .ldflags, verbGap := gap
      args := [(gap, math)], args_gap := nofun, trailing := gap }
  [.directive compile,
    .other "int f(int a);".toList (by decide) fun _ _ h =>
      absurd (congrArg List.head? h) (by decide : some 'i' ≠ some '#'),
    .directive link]

theorem parse_print_spacedLines :
    (∀ c ∈ "/a b".toList, SourceDir.isSafe c = true ∨ c = ' ') ∧
      parse ("\t #cgo \t linux,!arm\t cgo\t CFLAGS\t :\t -X$\x7bSRCDIR\x7d/1," ++
          "$\x7bSRCDIR\x7d/2\t -lm\t \nint f(int a);\n\t #cgo\t\t LDFLAGS\t :\t -lm\t ") "/a b" =
        .ok {
          copts := [⟨"linux,!arm cgo", "-X/a b/1,/a b/2 -lm"⟩]
          clinkopts := [⟨"", "-lm"⟩] } := by
  have hdir : ∀ c ∈ "/a b".toList, SourceDir.isSafe c = true ∨ c = ' ' := by decide
  exact ⟨hdir, parse_print spacedLines hdir⟩

end CgoFlags

end GoBuildRules
