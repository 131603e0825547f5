import Mathlib.Data.List.Infix
import GoBuildRules.Cgo.Directive
import GoBuildRules.Proofs.Fold
import GoBuildRules.Proofs.Text.Cut

/-!
# Safety of flags

The flags that parsing gives come from the arguments of directives, and no comment and no directory
makes an argument that a shell would take for anything else than one word.

* `SourceDir.expand_cases`: what is known of a word that is safe after its expansion. From it
  `SourceDir.isShellSafe_of_safe` follows, whatever quotes or markers the comment put together.
* `CgoFlags.exists_directiveLine`: the flags of a line are those of the one directive on it.
* `CgoFlags.parse_shellSafe`: the flags of a comment are the words of its directives, safe and
  joined by spaces.
-/

namespace GoBuildRules

/-! ## Words -/

namespace SourceDir

/-- A word of a directive with the directory in its places. -/
def expanded (dir word : String) : String :=
  (expand word dir).text

/-- The characters that quote, escape, group or end the words of a command. -/
def shellMarks : List Char :=
  ['"', '\'', '\\', '\x7b', '\x7d', '[', ']', '(', ')', '<', '>', ';', '|', '&', '\x60', '\t', '\n']

/-- Whether an expanded word is one argument: it is not empty, of ASCII it only has safe characters
and the spaces of a directory in its places, and no place for the directory is left. -/
structure IsShellSafe (dir word : String) : Prop where
  ne_empty : expanded dir word ≠ ""
  ascii : ∀ c ∈ (expanded dir word).toList, c.toNat < 128 →
    c ∈ safeCharacters ∨ c = ' ' ∧ marker <:+: word.toList ∧ ' ' ∈ dir.toList
  unmarked : ¬ marker <:+: (expanded dir word).toList

/-- Whether flags are words that are safe after their expansion, joined by single spaces. No mark of
the shell is in them, and cutting at the spaces gives the words if the directory has no space. -/
structure IsSafeJoin (dir : String) (words : List String) (opts : String) : Prop where
  eq_join : opts = " ".intercalate (words.map (expanded dir))
  shellSafe : ∀ word ∈ words, IsShellSafe dir word
  notMem : ∀ c ∈ shellMarks, c ∉ opts.toList
  splitAt_eq : ' ' ∉ dir.toList → opts ≠ "" → Text.splitAt ' ' opts = words.map (expanded dir)

theorem isSafe_iff {c : Char} : isSafe c = true ↔ 128 ≤ c.toNat ∨ c ∈ safeCharacters := by
  simp [isSafe]

theorem mem_safeCharacters {c : Char} (h : isSafe c = true) (hascii : c.toNat < 128) :
    c ∈ safeCharacters :=
  (isSafe_iff.mp h).resolve_left (Nat.not_le.mpr hascii)

theorem space_mem_of_mem_shown {dir : String} (h : ' ' ∈ shown dir) : ' ' ∈ dir.toList := by
  unfold shown at h
  split at h
  · simp at h
  · exact h

variable {dir word : String}

/-- A safe word without a place for the directory is not changed, and the text around the places of
another is safe. -/
theorem expand_cases (h : (expand word dir).safe = true) :
    (expanded dir word = word ∧ word ≠ "" ∧ ∀ c ∈ word.toList, isSafe c = true) ∨
      (marker <:+: word.toList ∧ ∃ pieces,
        (expanded dir word).toList = (shown dir).intercalate pieces ∧ expanded dir word ≠ "" ∧
        (∀ piece ∈ pieces, ∀ c ∈ piece, isSafe c = true) ∧
        ∀ c ∈ shown dir, isSafe c = true ∨ c = ' ') := by
  unfold expanded
  unfold expand at h ⊢
  -- A word in one piece has no place for the directory, and its own characters were tested.
  split at h
  · rename_i whole hchunks
    have hwhole : whole = word.toList := by
      rw [← Text.intercalate_chunks marker word.toList, hchunks, List.intercalate_singleton]
    subst hwhole
    simp only [Bool.and_eq_true, Bool.not_eq_true', List.isEmpty_eq_false_iff,
      List.all_eq_true] at h
    refine .inl ⟨rfl, ?_, h.2⟩
    rintro rfl
    exact h.1 rfl
  · rename_i hchunks
    simp only [Bool.and_eq_true, Bool.not_eq_true', List.isEmpty_eq_false_iff, List.all_eq_true,
      Bool.or_eq_true, beq_iff_eq] at h
    obtain ⟨⟨hpieces, hdir⟩, hne⟩ := h
    refine .inr ⟨Text.infix_of_chunks hchunks, _, String.toList_ofList, ?_, hpieces, hdir⟩
    intro hempty
    exact hne (by simpa using hempty)

theorem ascii_of_safe (h : (expand word dir).safe = true) :
    ∀ c ∈ (expanded dir word).toList, c.toNat < 128 →
      c ∈ safeCharacters ∨ c = ' ' ∧ marker <:+: word.toList ∧ ' ' ∈ dir.toList := by
  rcases expand_cases h with ⟨htext, -, hsafe⟩ | ⟨hmarker, pieces, htext, -, hpieces, hdir⟩
  · intro c hc hascii
    rw [htext] at hc
    exact .inl (mem_safeCharacters (hsafe c hc) hascii)
  · rw [htext]
    refine Text.forall_mem_intercalate ?_ ?_
    · intro c hc hascii
      rcases hdir c hc with hsafe | rfl
      · exact .inl (mem_safeCharacters hsafe hascii)
      · exact .inr ⟨rfl, hmarker, space_mem_of_mem_shown hc⟩
    · intro piece hpiece c hc hascii
      exact .inl (mem_safeCharacters (hpieces piece hpiece c hc) hascii)

theorem expanded_ne_empty (h : (expand word dir).safe = true) : expanded dir word ≠ "" := by
  rcases expand_cases h with ⟨htext, hne, -⟩ | ⟨-, _, -, hne, -⟩
  · rwa [htext]
  · exact hne

/-- A character of ASCII that is neither safe nor a space is in no safe word. -/
theorem IsShellSafe.notMem (h : IsShellSafe dir word) {c : Char} (hascii : c.toNat < 128)
    (hsafe : c ∉ safeCharacters) (hspace : c ≠ ' ') : c ∉ (expanded dir word).toList := by
  intro hmem
  rcases h.ascii c hmem hascii with hc | ⟨hc, -⟩
  · exact hsafe hc
  · exact hspace hc

/-- The place for the directory has a brace in it, which is not safe. So none is left, also where
the parts around it would give one together. -/
theorem isShellSafe_of_safe (h : (expand word dir).safe = true) : IsShellSafe dir word := by
  refine ⟨expanded_ne_empty h, ascii_of_safe h, fun hmarker => ?_⟩
  have hbrace : '\x7b' ∈ (expanded dir word).toList := hmarker.subset (by decide)
  rcases ascii_of_safe h _ hbrace (by decide) with hsafe | ⟨hspace, -⟩
  · exact absurd hsafe (by decide)
  · exact absurd hspace (by decide)

/-- Without a space in the directory there is none in a safe word. -/
theorem IsShellSafe.space_notMem (h : IsShellSafe dir word) (hdir : ' ' ∉ dir.toList) :
    ' ' ∉ (expanded dir word).toList := by
  intro hmem
  rcases h.ascii ' ' hmem (by decide) with hsafe | ⟨-, -, hspace⟩
  · exact absurd hsafe (by decide)
  · exact hdir hspace

/-- No mark of the shell is in safe words that are joined by spaces. -/
theorem notMem_intercalate_expanded {words : List String}
    (h : ∀ word ∈ words, IsShellSafe dir word) :
    ∀ c ∈ shellMarks, c ∉ (" ".intercalate (words.map (expanded dir))).toList := by
  have hmarks : ∀ c ∈ shellMarks, c.toNat < 128 ∧ c ∉ safeCharacters ∧ c ≠ ' ' := by decide
  intro c hc hmem
  obtain ⟨hascii, hsafe, hspace⟩ := hmarks c hc
  rw [String.toList_intercalate] at hmem
  refine Text.forall_mem_intercalate (P := fun d => d ≠ c) ?_ ?_ c hmem rfl
  · simpa using hspace.symm
  · intro piece hpiece d hd
    simp only [List.mem_map] at hpiece
    obtain ⟨_, ⟨word, hword, rfl⟩, rfl⟩ := hpiece
    rintro rfl
    exact (h word hword).notMem hascii hsafe hspace hd

/-- Safe words make safe flags. -/
theorem isSafeJoin_of_safe {words : List String}
    (h : ∀ word ∈ words, (expand word dir).safe = true) :
    IsSafeJoin dir words (" ".intercalate (words.map (expanded dir))) := by
  have hsafe : ∀ word ∈ words, IsShellSafe dir word := fun word hword =>
    isShellSafe_of_safe (h word hword)
  refine ⟨rfl, hsafe, notMem_intercalate_expanded hsafe, fun hdir hne => ?_⟩
  have hwords : words.map (expanded dir) ≠ [] := by
    intro hnil
    rw [hnil] at hne
    exact hne rfl
  refine Text.splitAt_intercalate hwords fun text htext => ?_
  obtain ⟨word, hword, rfl⟩ := List.mem_map.mp htext
  exact (hsafe word hword).space_notMem hdir

end SourceDir

/-! ## Lines -/

/-- A line with a directive, by its parts: the marker with a blank after it, the tags and the verb
before the first colon, and the words of the arguments after it. -/
structure DirectiveLine (line : List Char) where
  separator : Char
  separator_eq : separator = ' ' ∨ separator = '\t'
  rest : List Char
  trim_line : Text.trim line = "#cgo".toList ++ separator :: rest
  head : List Char
  args : List Char
  colon : ':' ∉ head
  trim_rest : Text.trim rest = head ++ ':' :: args
  tags : List (List Char)
  verb : List Char
  fields_head : Text.fields head = tags ++ [verb]
  words : List String
  split_args : Words.split (String.ofList (Text.trim args)) = .ok words

namespace CgoFlags

/-- All flags, those for the compilers first. -/
def toList (flags : CgoFlags) : List TaggedOpt :=
  flags.copts ++ flags.clinkopts

theorem mem_toList_foldr_append {opt : TaggedOpt} {all : List CgoFlags} :
    opt ∈ (all.foldr append {}).toList ↔ ∃ flags ∈ all, opt ∈ flags.toList := by
  induction all with
  | nil => simp [toList]
  | cons flags all ih =>
    simp only [toList, List.mem_append] at ih
    simp only [List.foldr_cons, toList, append, List.mem_append, List.mem_cons, exists_eq_or_imp]
    grind

variable {dir : String} {line head args : List Char} {flags : CgoFlags}

theorem directive?_eq_some {body : List Char} (h : directive? line = some body) :
    ∃ separator rest, Text.trim line = "#cgo".toList ++ separator :: rest ∧
      (separator = ' ' ∨ separator = '\t') ∧ Text.trim rest = body := by
  unfold directive? at h
  split at h
  · rename_i separator rest hafter
    split at h
    · rename_i hseparator
      exact ⟨separator, rest, Text.after?_eq_some_iff.mp hafter, hseparator, Option.some.inj h⟩
    · cases h
  · cases h

theorem verb?_eq_some {tags verb : String} (h : verb? head = some (tags, verb)) :
    ∃ before last, Text.fields head = before ++ [last] ∧
      tags = " ".intercalate (before.map String.ofList) ∧ verb = String.ofList last := by
  unfold verb? at h
  split at h
  · cases h
  · rename_i last before hfields
    obtain ⟨rfl, rfl⟩ := Prod.mk.inj (Option.some.inj h)
    have hmap : (Text.fields head).map String.ofList = before.reverse ++ [last] := by
      simpa using congrArg List.reverse hfields
    obtain ⟨tags, verb, hsplit, htags, hverb⟩ := List.map_eq_append_iff.mp hmap
    obtain ⟨last, rfl, rfl⟩ := List.map_eq_singleton_iff.mp hverb
    exact ⟨tags, last, hsplit, by rw [htags], rfl⟩

theorem arguments?_eq_some {opts : String} (h : arguments? args dir = some opts) :
    ∃ words, Words.split (String.ofList (Text.trim args)) = .ok words ∧
      opts = " ".intercalate (words.map (SourceDir.expanded dir)) ∧
      ∀ word ∈ words, (SourceDir.expand word dir).safe = true := by
  unfold arguments? at h
  split at h
  · cases h
  · rename_i words hwords
    simp only at h
    split at h
    · rename_i hsafe
      refine ⟨words, hwords, ?_, ?_⟩
      · rw [← Option.some.inj h, List.map_map]
        rfl
      · simpa using hsafe
    · cases h

theorem toList_of_ofVerb {shown verb : String} {opt : TaggedOpt}
    (h : ofVerb shown verb opt = .ok flags) : flags.toList = [opt] := by
  unfold ofVerb at h
  split at h
  · cases h
    rfl
  · split at h
    · cases h
      rfl
    · split at h <;> cases h

/-- The flags of a line are those of the directive on it, and all its words are safe. -/
theorem exists_directiveLine (h : ofLine dir line = .ok flags) {opt : TaggedOpt}
    (hopt : opt ∈ flags.toList) :
    ∃ d : DirectiveLine line, opt.tags = " ".intercalate (d.tags.map String.ofList) ∧
      opt.opts = " ".intercalate (d.words.map (SourceDir.expanded dir)) ∧
      ∀ word ∈ d.words, (SourceDir.expand word dir).safe = true := by
  unfold ofLine at h
  split at h
  · cases h
    cases hopt
  · rename_i body hbody
    obtain ⟨separator, rest, hline, hseparator, rfl⟩ := directive?_eq_some hbody
    split at h
    · cases h
    · rename_i head args hcut
      split at h
      · cases h
      · rename_i tags verb hverb
        obtain ⟨before, last, hfields, htags, -⟩ := verb?_eq_some hverb
        split at h
        · cases h
        · rename_i opts hargs
          obtain ⟨words, hwords, hopts, hsafe⟩ := arguments?_eq_some hargs
          rw [toList_of_ofVerb h, List.mem_singleton] at hopt
          have hrest : Text.trim rest = head ++ ':' :: args := by
            simpa using Text.eq_append_of_cutAt hcut
          -- Each part of the line has been found on the way by the step that read it.
          let d : DirectiveLine line :=
            { separator, separator_eq := hseparator, rest, trim_line := hline, head, args
              colon := Text.notMem_of_cutAt_singleton hcut, trim_rest := hrest
              tags := before, verb := last, fields_head := hfields
              words, split_args := hwords }
          refine ⟨d, ?_, ?_, hsafe⟩
          · rw [hopt, htags]
          · rw [hopt, hopts]

/-! ## Comments -/

/-- A comment that is accepted is accepted line by line. -/
theorem exists_mapM_of_parse {comment : String} (h : parse comment dir = .ok flags) :
    ∃ all, (Text.lines comment.toList).mapM (ofLine dir) = .ok all ∧
      flags = all.foldr append {} := by
  unfold parse at h
  cases hall : (Text.lines comment.toList).mapM (ofLine dir) with
  | error e =>
    rw [hall] at h
    cases h
  | ok all =>
    rw [hall] at h
    exact ⟨all, rfl, (Except.ok.inj h).symm⟩

theorem exists_line_of_mem {comment : String} (h : parse comment dir = .ok flags) {opt : TaggedOpt}
    (hopt : opt ∈ flags.toList) :
    ∃ line ∈ Text.lines comment.toList, ∃ own, ofLine dir line = .ok own ∧ opt ∈ own.toList := by
  obtain ⟨all, hall, rfl⟩ := exists_mapM_of_parse h
  obtain ⟨own, hown, hopt⟩ := mem_toList_foldr_append.mp hopt
  obtain ⟨line, hline, hread⟩ := Fold.exists_of_mem_mapM hall hown
  exact ⟨line, hline, own, hread, hopt⟩

/-- **Accepted flags are safe for a shell and keep their words apart.** Each of them is the join of
the words of a directive of the comment, all of which are safe after their expansion. -/
theorem parse_shellSafe {comment : String} (h : parse comment dir = .ok flags) :
    ∀ opt ∈ flags.toList, ∃ line ∈ Text.lines comment.toList, ∃ d : DirectiveLine line,
      opt.tags = " ".intercalate (d.tags.map String.ofList) ∧
        SourceDir.IsSafeJoin dir d.words opt.opts := by
  intro opt hopt
  obtain ⟨line, hline, own, hread, hown⟩ := exists_line_of_mem h hopt
  obtain ⟨d, htags, hopts, hsafe⟩ := exists_directiveLine hread hown
  refine ⟨line, hline, d, htags, ?_⟩
  rw [hopts]
  exact SourceDir.isSafeJoin_of_safe hsafe

/-- Two directives with quotes and backslashes, of which none is left in the flags. -/
def quotedWords : String :=
  "#cgo linux CFLAGS: '-I$\x7bSRCDIR\x7d'/inc -\\O2\n int x;\n#cgo LDFLAGS: \"-lm\""

theorem parse_shellSafe_quotedWords :
    let flags : CgoFlags :=
      { copts := [⟨"linux", "-I/src/inc -O2"⟩], clinkopts := [⟨"", "-lm"⟩] }
    parse quotedWords "/src" = .ok flags ∧
      ∀ opt ∈ flags.toList, ∃ line ∈ Text.lines quotedWords.toList, ∃ d : DirectiveLine line,
        opt.tags = " ".intercalate (d.tags.map String.ofList) ∧
          SourceDir.IsSafeJoin "/src" d.words opt.opts := by
  intro flags
  have h : parse quotedWords "/src" = .ok flags := by decide +kernel
  exact ⟨h, parse_shellSafe h⟩

end CgoFlags

end GoBuildRules
