import GoBuildRules.Proofs.Cgo.Quoting
import GoBuildRules.Proofs.Cgo.Safety
import GoBuildRules.Proofs.Text.Lines

/-!
# Directives without arguments

An argument that is empty is refused (`SourceDir.expanded_ne_empty`), but a directive needs no
argument: with nothing but blanks after its colon it gives the empty flag
(`CgoFlags.empty_mem_flags_iff`). For this a directive is evaluated by its parts
(`DirectiveLine.ofLine_eq`), and the flags of a comment are those of its directives
(`CgoFlags.mem_flags_parse_iff`).
-/

namespace GoBuildRules

/-- The programs that directives give flags to. -/
inductive Tool where
  | compiler
  | linker
  deriving DecidableEq, Repr

namespace Tool

/-- The verbs of the directives for the tool. -/
def verbs : Tool → List String
  | compiler => ["CFLAGS", "CPPFLAGS", "CXXFLAGS"]
  | linker => ["LDFLAGS"]

/-- The flags for the tool. -/
def flags : Tool → CgoFlags → List TaggedOpt
  | compiler, flags => flags.copts
  | linker, flags => flags.clinkopts

end Tool

/-- Whether a line of the comment is a directive for the tool with these tags and with nothing but
blanks after the colon. -/
def HasBareDirective (tool : Tool) (tags comment : String) : Prop :=
  ∃ line ∈ Text.lines comment.toList, ∃ d : DirectiveLine line,
    String.ofList d.verb ∈ tool.verbs ∧ " ".intercalate (d.tags.map String.ofList) = tags ∧
      ∀ c ∈ d.args, Text.isBlank c = true

/-! ## Words -/

namespace Words

/-- Only a text of blanks has no words. -/
theorem split_eq_ok_nil_iff {s : String} :
    split s = .ok [] ↔ ∀ c ∈ s.toList, Text.isBlank c = true := by
  rw [split_eq_ok_iff]
  constructor
  · rintro ⟨⟨words, apart, trailing, blank⟩, hs, hwords⟩
    obtain rfl : words = [] := by simpa [Rendering.texts] using hwords.symm
    rw [hs]
    exact blank
  · intro h
    exact ⟨⟨[], nofun, s.toList, h⟩, rfl, rfl⟩

end Words

namespace SourceDir

variable {dir : String} {words : List String}

/-- Flags are empty only where there is no word. -/
theorem intercalate_expanded_eq_empty_iff (h : ∀ word ∈ words, (expand word dir).safe = true) :
    " ".intercalate (words.map (expanded dir)) = "" ↔ words = [] := by
  have hne : ∀ text ∈ words.map (expanded dir), text ≠ "" := by
    intro text htext
    obtain ⟨word, hword, rfl⟩ := List.mem_map.mp htext
    exact expanded_ne_empty (h word hword)
  rw [Text.intercalate_eq_empty_iff hne, List.map_eq_nil_iff]

end SourceDir

namespace DirectiveLine

variable {line : List Char} (d : DirectiveLine line) (dir : String)

/-- The flags of a directive, where its words are safe. -/
def opt : TaggedOpt where
  tags := " ".intercalate (d.tags.map String.ofList)
  opts := " ".intercalate (d.words.map (SourceDir.expanded dir))

/-- A directive is evaluated by its parts. -/
theorem ofLine_eq :
    CgoFlags.ofLine dir line =
      if ∀ word ∈ d.words, (SourceDir.expand word dir).safe = true then
        CgoFlags.ofVerb (String.ofList line) (String.ofList d.verb) (d.opt dir)
      else .error (.malformedArgument (String.ofList line)) := by
  have hdirective : CgoFlags.directive? line = some (d.head ++ ':' :: d.args) := by
    rw [CgoFlags.directive?, Text.after?_eq_some_iff.mpr d.trim_line, d.trim_rest.symm]
    exact if_pos d.separator_eq
  have hverb : CgoFlags.verb? d.head =
      some (" ".intercalate (d.tags.map String.ofList), String.ofList d.verb) := by
    rw [CgoFlags.verb?, d.fields_head]
    simp
  -- The parts are read the same way in both cases; the test of the words comes last.
  by_cases hsafe : ∀ word ∈ d.words, (SourceDir.expand word dir).safe = true
  · have hargs : CgoFlags.arguments? d.args dir =
        some (" ".intercalate (d.words.map (SourceDir.expanded dir))) := by
      rw [CgoFlags.arguments?, d.split_args]
      simp only [List.all_map, Function.comp_def, List.all_eq_true, if_pos hsafe, List.map_map]
      rfl
    rw [if_pos hsafe]
    simp only [CgoFlags.ofLine, hdirective, Text.cutAt_singleton d.colon, hverb, hargs]
    rfl
  · have hargs : CgoFlags.arguments? d.args dir = none := by
      rw [CgoFlags.arguments?, d.split_args]
      simp only [List.all_map, Function.comp_def, List.all_eq_true, if_neg hsafe]
    rw [if_neg hsafe]
    simp only [CgoFlags.ofLine, hdirective, Text.cutAt_singleton d.colon, hverb, hargs]

/-- A directive without words has nothing but blanks after its colon. -/
theorem words_eq_nil_iff : d.words = [] ↔ ∀ c ∈ d.args, Text.isBlank c = true := by
  have hsplit : d.words = [] ↔ Words.split (String.ofList (Text.trim d.args)) = .ok [] := by
    rw [d.split_args, Except.ok.injEq]
  rw [hsplit, Words.split_eq_ok_nil_iff, String.toList_ofList, Text.forall_mem_trim_iff]

end DirectiveLine

/-! ## Flags -/

namespace CgoFlags

variable {tool : Tool} {dir comment shown verb tags : String} {line : List Char} {flags : CgoFlags}
  {opt own : TaggedOpt}

theorem mem_toList_of_mem_flags (h : opt ∈ tool.flags flags) : opt ∈ flags.toList := by
  rw [toList, List.mem_append]
  cases tool with
  | compiler => exact .inl h
  | linker => exact .inr h

theorem mem_flags_ofVerb_iff (h : ofVerb shown verb own = .ok flags) :
    opt ∈ tool.flags flags ↔ verb ∈ tool.verbs ∧ own = opt := by
  unfold ofVerb at h
  split at h
  · rename_i hverb
    obtain rfl := Except.ok.inj h
    rw [List.contains_iff_mem] at hverb
    cases tool with
    | compiler => simp [Tool.flags, Tool.verbs, hverb, eq_comm]
    | linker =>
      have hne : verb ≠ "LDFLAGS" := by
        rintro rfl
        exact absurd hverb (by decide)
      simp [Tool.flags, Tool.verbs, hne]
  · split at h
    · rename_i hverb hlinker
      obtain rfl := Except.ok.inj h
      subst hlinker
      cases tool <;> simp [Tool.flags, Tool.verbs, eq_comm]
    · split at h <;> cases h

/-- The flags of a line are those of the directive on it. -/
theorem mem_flags_ofLine_iff (h : ofLine dir line = .ok flags) :
    opt ∈ tool.flags flags ↔
      ∃ d : DirectiveLine line, String.ofList d.verb ∈ tool.verbs ∧ d.opt dir = opt := by
  have hown : ∀ d : DirectiveLine line,
      opt ∈ tool.flags flags ↔ String.ofList d.verb ∈ tool.verbs ∧ d.opt dir = opt := by
    intro d
    rw [d.ofLine_eq] at h
    split at h
    · exact mem_flags_ofVerb_iff h
    · cases h
  constructor
  · intro hopt
    obtain ⟨d, -, -, -⟩ := exists_directiveLine h (mem_toList_of_mem_flags hopt)
    exact ⟨d, (hown d).mp hopt⟩
  · rintro ⟨d, hd⟩
    exact (hown d).mpr hd

/-- All words of a directive that is accepted are safe. -/
theorem safe_of_ofLine (h : ofLine dir line = .ok flags) (d : DirectiveLine line) :
    ∀ word ∈ d.words, (SourceDir.expand word dir).safe = true := by
  rw [d.ofLine_eq] at h
  split at h
  · assumption
  · cases h

theorem mem_flags_foldr_append {all : List CgoFlags} :
    opt ∈ tool.flags (all.foldr append {}) ↔ ∃ flags ∈ all, opt ∈ tool.flags flags := by
  have happend : ∀ a b : CgoFlags,
      opt ∈ tool.flags (append a b) ↔ opt ∈ tool.flags a ∨ opt ∈ tool.flags b := by
    intro a b
    cases tool <;> exact List.mem_append
  induction all with
  | nil => cases tool <;> simp [Tool.flags]
  | cons flags all ih => simp [happend, ih]

/-- The flags of a comment are those of its directives. -/
theorem mem_flags_parse_iff (h : parse comment dir = .ok flags) :
    opt ∈ tool.flags flags ↔ ∃ line ∈ Text.lines comment.toList, ∃ d : DirectiveLine line,
      String.ofList d.verb ∈ tool.verbs ∧ d.opt dir = opt := by
  obtain ⟨all, hall, rfl⟩ := exists_mapM_of_parse h
  rw [mem_flags_foldr_append]
  constructor
  · rintro ⟨flags, hflags, hopt⟩
    obtain ⟨line, hline, hread⟩ := Fold.exists_of_mem_mapM hall hflags
    exact ⟨line, hline, (mem_flags_ofLine_iff hread).mp hopt⟩
  · rintro ⟨line, hline, hdirective⟩
    obtain ⟨flags, hflags, hread⟩ := Fold.exists_mem_of_mapM hall hline
    exact ⟨flags, hflags, (mem_flags_ofLine_iff hread).mpr hdirective⟩

theorem safe_of_parse (h : parse comment dir = .ok flags) (hline : line ∈ Text.lines comment.toList)
    (d : DirectiveLine line) : ∀ word ∈ d.words, (SourceDir.expand word dir).safe = true := by
  obtain ⟨all, hall, -⟩ := exists_mapM_of_parse h
  obtain ⟨own, -, hread⟩ := Fold.exists_mem_of_mapM hall hline
  exact safe_of_ofLine hread d

/-- The empty flag comes from the directives without arguments. -/
theorem empty_mem_flags_iff (h : parse comment dir = .ok flags) :
    ⟨tags, ""⟩ ∈ tool.flags flags ↔ HasBareDirective tool tags comment := by
  rw [mem_flags_parse_iff h]
  refine exists_congr fun line => and_congr_right fun hline => exists_congr fun d => ?_
  rw [DirectiveLine.opt, TaggedOpt.mk.injEq,
    SourceDir.intercalate_expanded_eq_empty_iff (safe_of_parse h hline d), d.words_eq_nil_iff]

end CgoFlags

end GoBuildRules
