import Mathlib.Data.List.Basic
import GoBuildRules.Proofs.Header.Declarations
import GoBuildRules.Proofs.Header.Lexing

/-!
# Comments directly above an import

Comment lines that stand directly above `import "C"` document it, whatever header stands before
them, unless they go on from comments that start on the line of a token: then the import has no
documentation at all (`imports_below_block`).

The state in which the lexemes of a text leave the search for documentation is `Token.pending`: the
line of the last token and the comments since then.
-/

namespace GoBuildRules

/-! ## Documentation and what follows -/

namespace CommentGroup

variable {previous : Nat} {c : Comment} {group : Option CommentGroup}

theorem last_extend : (extend previous c group).last = c.last := by
  cases group with
  | none => rfl
  | some g =>
    rw [extend]
    split <;> rfl

/-- A comment below a group goes on with it when no line is between them. -/
theorem extend_cases (previous : Nat) (c : Comment) (hgroup : ∀ g ∈ group, g.last < c.first) :
    (∃ g, group = some g ∧ g.last + 1 = c.first ∧
      extend previous c group = { g with lines := g.lines ++ c.lines, last := c.last }) ∨
    (∀ g ∈ group, g.last + 1 ≠ c.first) ∧ extend previous c group = single previous c := by
  cases group with
  | none => exact .inr ⟨nofun, rfl⟩
  | some g =>
    have hlt := hgroup g rfl
    by_cases hnext : c.first ≤ g.last + 1
    · exact .inl ⟨g, rfl, by omega, by rw [extend, if_pos hnext]⟩
    · refine .inr ⟨fun other hother => ?_, by rw [extend, if_neg hnext]⟩
      rw [← Option.some.inj hother]
      omega

end CommentGroup

namespace Token

variable {previous last : Nat} {group : Option CommentGroup} {ls more : List Lexeme}

/-- After the lexemes, the line on which the last token starts and the comments since then. -/
def pending (previous : Nat) (group : Option CommentGroup) :
    List Lexeme → Nat × Option CommentGroup
  | [] => (previous, group)
  | .comment c :: rest => pending previous (some (CommentGroup.extend previous c group)) rest
  | .token _ line :: rest => pending line none rest

theorem documented_append : documented previous group (ls ++ more) =
    documented previous group ls ++
      documented (pending previous group ls).1 (pending previous group ls).2 more := by
  induction ls generalizing previous group with
  | nil => rfl
  | cons l rest ih =>
    cases l with
    | comment c => exact ih
    | token kind line => exact congrArg (_ :: ·) ih

/-- What is pending lies above a line below all lexemes. -/
theorem pending_lt (hprevious : previous < last) (hgroup : ∀ g ∈ group, g.last < last)
    (h : ∀ l ∈ ls, l.lastLine < last) :
    (pending previous group ls).1 < last ∧ ∀ g ∈ (pending previous group ls).2, g.last < last := by
  induction ls generalizing previous group with
  | nil => exact ⟨hprevious, hgroup⟩
  | cons l rest ih =>
    have hrest : ∀ l ∈ rest, l.lastLine < last := fun l hl => h l (List.mem_cons_of_mem _ hl)
    have hfirst := h l List.mem_cons_self
    cases l with
    | comment c =>
      refine ih hprevious (fun g hg => ?_) hrest
      rw [← Option.some.inj hg, CommentGroup.last_extend]
      exact hfirst
    | token kind line => exact ih hfirst nofun hrest

end Token

/-! ## Comment lines -/

/-- A line that holds one comment and nothing else. -/
structure CommentLine where
  indent : List Char
  /-- The comment without its marks. -/
  text : List Char
  blank : ∀ c ∈ indent, Text.isBlank c = true
  indent_line : '\n' ∉ indent
  text_line : '\n' ∉ text

namespace CommentLine

/-- The characters of the line. -/
def chars (l : CommentLine) : List Char :=
  l.indent ++ '/' :: '/' :: l.text ++ ['\n']

/-- The lexemes of comment lines, the first of which is `line`. -/
def lexemes (line : Nat) : List CommentLine → List Lexeme
  | [] => []
  | l :: rest => .comment ⟨line, line, [String.ofList l.text]⟩ :: lexemes (line + 1) rest

/-- The texts of comment lines. -/
def texts (block : List CommentLine) : List String :=
  block.map fun l => String.ofList l.text

end CommentLine

namespace Lexeme

variable {line : Nat} {cs gap : List Char}

theorem lex_blanks (h : ∀ c ∈ gap, Text.isBlank c = true) :
    lex line (gap ++ cs) = lex (line + Text.lineFeeds gap) cs := by
  induction gap generalizing line with
  | nil => rfl
  | cons c gap ih =>
    rw [List.cons_append, lex_blank (h c List.mem_cons_self),
      ih fun d hd => h d (List.mem_cons_of_mem _ hd)]
    have hfeeds : Text.lineFeeds (c :: gap) = Text.lineFeeds [c] + Text.lineFeeds gap :=
      Text.lineFeeds_append [c] gap
    rw [hfeeds, Nat.add_assoc]

theorem lex_commentLine (l : CommentLine) : lex line (l.chars ++ cs) =
    (.comment ⟨line, line, [String.ofList l.text]⟩ :: (lex (line + 1) cs).1,
      (lex (line + 1) cs).2) := by
  have hchars : l.chars ++ cs = l.indent ++ '/' :: '/' :: (l.text ++ '\n' :: cs) := by
    simp [CommentLine.chars]
  have hall : ∀ c ∈ l.text, (c != '\n') = true :=
    fun c hc => bne_iff_ne.mpr fun heq => l.text_line (heq ▸ hc)
  have htake : (l.text ++ '\n' :: cs).takeWhile (· != '\n') = l.text := by
    rw [List.takeWhile_append_of_pos hall]
    simp
  have hdrop : (l.text ++ '\n' :: cs).dropWhile (· != '\n') = '\n' :: cs := by
    rw [List.dropWhile_append_of_pos hall]
    simp
  have hscan := scan_eq_ok_iff.mpr (Scans.lineComment (l.text ++ '\n' :: cs))
  rw [htake, hdrop] at hscan
  rw [hchars, lex_blanks l.blank, Text.lineFeeds_eq_zero l.indent_line, Nat.add_zero,
    lex_scan (by decide) hscan]
  simp only [Nat.add_zero, lex_blank (show Text.isBlank '\n' = true by decide)]
  rfl

theorem lex_block (block : List CommentLine) :
    lex line (block.flatMap CommentLine.chars ++ cs) =
      (CommentLine.lexemes line block ++ (lex (line + block.length) cs).1,
        (lex (line + block.length) cs).2) := by
  induction block generalizing line with
  | nil => rfl
  | cons l rest ih =>
    rw [List.flatMap_cons, List.append_assoc, lex_commentLine, ih, List.length_cons,
      Nat.add_assoc, Nat.add_comm 1]
    rfl

/-- The characters after a name that do not go on with it. -/
theorem scan_name {c : Char} (text : List Char) {rest : List Char}
    (hstart : Text.startsName c = true) (htext : ∀ d ∈ text, Text.continuesName d = true)
    (hrest : ∀ d ∈ rest.head?, Text.continuesName d = false) :
    scan c (text ++ rest) = .ok ⟨.token (.name (String.ofList (c :: text))), 0, rest⟩ := by
  have htake : rest.takeWhile Text.continuesName = [] ∧
      rest.dropWhile Text.continuesName = rest := by
    cases rest with
    | nil => exact ⟨rfl, rfl⟩
    | cons d rest =>
      have hd := hrest d rfl
      simp [hd]
  have hscan := scan_eq_ok_iff.mpr (Scans.name (text ++ rest) hstart)
  rwa [List.takeWhile_append_of_pos htext, List.dropWhile_append_of_pos htext, htake.1, htake.2,
    List.append_nil] at hscan

end Lexeme

/-! ## The comments of the block -/

namespace Token

variable {previous line : Nat} {group : Option CommentGroup}

/-- Comment lines directly below a group go on with it. -/
theorem pending_lexemes_of_some (g : CommentGroup) (block : List CommentLine) :
    pending previous (some g) (CommentLine.lexemes (g.last + 1) block) =
      (previous, some { g with
        lines := g.lines ++ CommentLine.texts block
        last := g.last + block.length }) := by
  induction block generalizing g with
  | nil => simp [CommentLine.lexemes, pending, CommentLine.texts]
  | cons l rest ih =>
    let next : CommentGroup :=
      { g with lines := g.lines ++ [String.ofList l.text], last := g.last + 1 }
    have hextend : CommentGroup.extend previous ⟨g.last + 1, g.last + 1, [String.ofList l.text]⟩
        (some g) = next := by
      rw [CommentGroup.extend, if_pos (Nat.le_refl _)]
    rw [CommentLine.lexemes, pending, hextend, ih next]
    simp [next, CommentLine.texts, Nat.add_assoc, Nat.add_comm 1]

/-- The comments that trail a token go on to the line. -/
def Trails (group : Option CommentGroup) (line : Nat) : Prop :=
  ∃ g, group = some g ∧ g.startsLine = false ∧ g.last + 1 = line

/-- Below a line that is past what is pending, comment lines are pending in the end, after the
comments that they go on with. -/
theorem pending_lexemes {block : List CommentLine} (hblock : block ≠ [])
    (hprevious : previous < line) (hgroup : ∀ g ∈ group, g.last < line) :
    ∃ g, pending previous group (CommentLine.lexemes line block) = (previous, some g) ∧
      g.last + 1 = line + block.length ∧ CommentLine.texts block <:+ g.lines ∧
      (g.startsLine = false ↔ Trails group line) := by
  obtain ⟨l, rest, rfl⟩ := List.exists_cons_of_ne_nil hblock
  let first : Comment := ⟨line, line, [String.ofList l.text]⟩
  let g := CommentGroup.extend previous first group
  have hlast : g.last = line := CommentGroup.last_extend
  -- The first line goes on with the group above or starts one; the others go on with that.
  obtain ⟨hlines, hstarts⟩ : [String.ofList l.text] <:+ g.lines ∧
      (g.startsLine = false ↔ Trails group line) := by
    rcases CommentGroup.extend_cases previous first hgroup with
      ⟨before, rfl, hnext, hextend⟩ | ⟨hnext, hextend⟩
    · rw [show g = _ from hextend]
      refine ⟨⟨before.lines, rfl⟩, fun hstarts => ⟨before, rfl, hstarts, hnext⟩, ?_⟩
      rintro ⟨other, hother, hstarts, -⟩
      exact Option.some.inj hother ▸ hstarts
    · rw [show g = _ from hextend]
      refine ⟨List.suffix_refl _, iff_of_false ?_ ?_⟩
      · simp [CommentGroup.single, first, hprevious]
      · rintro ⟨other, hother, -, hlast⟩
        exact hnext other hother hlast
  refine ⟨_, (congrArg (fun n => pending previous (some g) (CommentLine.lexemes (n + 1) rest))
    hlast.symm).trans (pending_lexemes_of_some g rest), ?_, ?_, hstarts⟩
  · simp only [hlast, List.length_cons]
    omega
  · obtain ⟨prior, hprior⟩ := hlines
    exact ⟨prior, by rw [← hprior]; simp [CommentLine.texts]⟩

end Token

/-- Comment lines, and then a line that imports `"C"`, with what follows the path. -/
structure BlockedImport where
  block : List CommentLine
  indent : List Char
  gap : List Char
  following : List Char
  block_ne_nil : block ≠ []
  indent_blank : ∀ c ∈ indent, Text.isBlank c = true
  indent_line : '\n' ∉ indent
  gap_blank : ∀ c ∈ gap, Text.isBlank c = true

namespace BlockedImport

/-- The import and what follows it. -/
def importChars (b : BlockedImport) : List Char :=
  b.indent ++ "import".toList ++ b.gap ++ "\"C\"".toList ++ b.following

/-- The characters of the comment lines, of the import and of what follows. -/
def chars (b : BlockedImport) : List Char :=
  b.block.flatMap CommentLine.chars ++ b.importChars

/-- The line after the path of the import, where the import starts on `line`. -/
def lineAfter (b : BlockedImport) (line : Nat) : Nat :=
  line + Text.lineFeeds b.gap

open Lexeme in
theorem lex_importChars (b : BlockedImport) (line : Nat) :
    lex line b.importChars =
      (.token (.name "import") line :: .token (.literal "C") (b.lineAfter line) ::
        (lex (b.lineAfter line) b.following).1, (lex (b.lineAfter line) b.following).2) := by
  have hchars : b.importChars =
      b.indent ++ 'i' :: ("mport".toList ++ (b.gap ++ '"' :: 'C' :: '"' :: b.following)) := by
    simp [importChars]
  have hhead : ∀ d ∈ (b.gap ++ '"' :: 'C' :: '"' :: b.following).head?,
      Text.continuesName d = false := by
    cases hgap : b.gap with
    | nil =>
      rintro d ⟨⟩
      decide
    | cons c gap =>
      rintro d ⟨⟩
      exact Text.continuesName_eq_false_of_isBlank (b.gap_blank c (hgap ▸ List.mem_cons_self))
  have hmport : "mport".toList.all Text.continuesName = true := by decide
  have hname := scan_name "mport".toList (show Text.startsName 'i' = true by decide)
    (List.all_eq_true.mp hmport) hhead
  have hread : Literal.read ('C' :: '"' :: b.following) = .ok ([67], b.following) := by
    have hbyte : String.utf8EncodeChar 'C' = [67] := by decide
    simp [Literal.read, Except.map, hbyte]
  have hquoted := scan_eq_ok_iff.mpr (Scans.quoted hread)
  -- Blanks, the keyword, blanks again and the path, each as one lexeme.
  rw [hchars, lex_blanks b.indent_blank, Text.lineFeeds_eq_zero b.indent_line, Nat.add_zero,
    lex_scan (by decide) hname]
  simp only [Nat.add_zero, lex_blanks b.gap_blank]
  rw [lex_scan (by decide) hquoted]
  have hliteral : Utf8.lossyText [67] = "C" := by decide +kernel
  simp only [Nat.add_zero, hliteral]
  rfl

open Lexeme in
theorem lex_chars (b : BlockedImport) (line : Nat) :
    lex line b.chars =
      (CommentLine.lexemes line b.block ++
        .token (.name "import") (line + b.block.length) ::
        .token (.literal "C") (b.lineAfter (line + b.block.length)) ::
        (lex (b.lineAfter (line + b.block.length)) b.following).1,
      (lex (b.lineAfter (line + b.block.length)) b.following).2) := by
  rw [chars, lex_block, lex_importChars]

theorem documented_lexemes {previous line : Nat} {group : Option CommentGroup}
    (block : List CommentLine) :
    Token.documented previous group (CommentLine.lexemes line block) = [] := by
  induction block generalizing line group with
  | nil => rfl
  | cons l rest ih => exact ih

/-- The tokens of the import and of what follows it, where the comments of the block are `g`. -/
theorem documented_chars (b : BlockedImport) {previous line : Nat} {group : Option CommentGroup}
    {g : CommentGroup} (hpending : Token.pending previous group
      (CommentLine.lexemes line b.block) = (previous, some g)) :
    ∃ more, Token.documented previous group (Lexeme.lex line b.chars).1 =
      ⟨.name "import", line + b.block.length, g.doc? (line + b.block.length)⟩ ::
      ⟨.literal "C", b.lineAfter (line + b.block.length), none⟩ :: more := by
  rw [lex_chars]
  simp only [Token.documented_append, documented_lexemes, hpending, List.nil_append]
  exact ⟨_, rfl⟩

end BlockedImport

/-! ## The lines of the documentation -/

/-- Cutting joined lines at their ends gives back the last ones, when these are single lines. -/
theorem suffix_splitOn_intercalate {texts : List (List Char)} (hne : texts ≠ [])
    (hline : ∀ text ∈ texts, '\n' ∉ text) (prior : List (List Char)) :
    texts <:+ (['\n'].intercalate (prior ++ texts)).splitOn '\n' := by
  induction prior with
  | nil =>
    rw [List.nil_append]
    exact ⟨[], (List.splitOn_intercalate _ hline hne).symm⟩
  | cons p prior ih =>
    have hrest : prior ++ texts ≠ [] := fun h => hne (List.append_eq_nil_iff.mp h).2
    rw [List.cons_append, List.intercalate_cons_of_ne_nil hrest, List.append_assoc,
      List.singleton_append, List.splitOn_append_cons_self]
    exact List.suffix_append_of_suffix ih

/-- The texts of a block at the end of the lines of a comment are its last lines. -/
theorem CommentLine.texts_suffix_splitAt {block : List CommentLine} (hblock : block ≠ [])
    {lines : List String} (h : texts block <:+ lines) :
    texts block <:+ Text.splitAt '\n' ("\n".intercalate lines) := by
  obtain ⟨prior, rfl⟩ := h
  have hne : block.map text ≠ [] := fun h => hblock (List.map_eq_nil_iff.mp h)
  have hline : ∀ cs ∈ block.map text, '\n' ∉ cs := by
    intro cs hcs
    obtain ⟨l, -, rfl⟩ := List.mem_map.mp hcs
    exact l.text_line
  have hsuffix := (suffix_splitOn_intercalate hne hline (prior.map String.toList)).map
    String.ofList
  have htoList : (texts block).map String.toList = block.map text := by
    simp [texts, Function.comp_def]
  have htexts : (block.map text).map String.ofList = texts block := by
    simp [texts, Function.comp_def]
  rw [Text.splitAt, String.toList_intercalate, List.map_append, htoList]
  rwa [htexts] at hsuffix

/-! ## The header -/

/-- The text ends in a line feed, and it is a header up to its end: a package clause and import
declarations. It ends on the line `last`. -/
structure IsWholeHeader (source : List Char) (packageName : String) (specs : List ImportSpec)
    (last : Nat) : Prop where
  ends : source.getLast? = some '\n'
  ending : (Lexeme.lex 1 source).2 = .complete last
  tokens : ∃ keyword name rest,
    Token.documented 0 none (Lexeme.lex 1 source).1 = keyword :: name :: rest ∧
      keyword.kind = .name "package" ∧ name.kind = .name packageName ∧
      Header.Declares (.complete last) rest specs

/-- The comments that are pending at the end of the text. -/
def pendingComments (source : List Char) : Option CommentGroup :=
  (Token.pending 0 none (Lexeme.lex 1 source).1).2

namespace IsWholeHeader

variable {source : List Char} {packageName : String} {specs : List ImportSpec} {last : Nat}

theorem endsLine (h : IsWholeHeader source packageName specs last) : Text.EndsLine source := by
  intro c hc
  rw [h.ends] at hc
  exact (Option.some.inj hc).symm

/-- At the end of a header all tokens and comments lie above its last line. -/
theorem pending_lt (h : IsWholeHeader source packageName specs last) :
    (Token.pending 0 none (Lexeme.lex 1 source).1).1 < last ∧
      ∀ g ∈ pendingComments source, g.last < last := by
  have hne : source ≠ [] := by
    rintro rfl
    cases h.ends
  obtain ⟨-, hfirst, hlines⟩ := Lexeme.lex_lines_lt h.endsLine (Prod.ext rfl h.ending)
  exact Token.pending_lt (Nat.lt_trans Nat.zero_lt_one (hfirst hne)) nofun hlines

/-- The tokens of a header and of an import below it. -/
theorem ofSource_append (h : IsWholeHeader source packageName specs last) (cs : List Char) :
    Token.ofSource (String.ofList (source ++ cs)) =
      (Token.documented 0 none (Lexeme.lex 1 source).1 ++
        Token.documented (Token.pending 0 none (Lexeme.lex 1 source).1).1 (pendingComments source)
          (Lexeme.lex last cs).1, (Lexeme.lex last cs).2) := by
  have hlex : Lexeme.lex 1 source = ((Lexeme.lex 1 source).1, .complete last) :=
    Prod.ext rfl h.ending
  rw [Token.ofSource, String.toList_ofList, Lexeme.lex_append h.endsLine hlex]
  simp only [Token.documented_append]
  rfl

/-- The imports of a header come first, and then those that follow. -/
theorem parse_append (h : IsWholeHeader source packageName specs last) (cs : List Char) :
    Header.parse (String.ofList (source ++ cs)) =
      (Header.importDecls (Lexeme.lex last cs).2
        (Token.documented (Token.pending 0 none (Lexeme.lex 1 source).1).1 (pendingComments source)
          (Lexeme.lex last cs).1)).map fun more => ⟨packageName, specs ++ more⟩ := by
  obtain ⟨keyword, name, rest, htokens, hkeyword, hname, hdeclares⟩ := h.tokens
  rw [Header.parse, h.ofSource_append, htokens]
  simp only [List.cons_append, Header.ofTokens, hkeyword, hname, if_true,
    Header.importDecls_append hdeclares]
  cases Header.importDecls _ _ <;> rfl

end IsWholeHeader

/-- **A block of comments directly above the import of `"C"`.** Below a header the block is the end
of the documentation of the import, whatever comments stand before it, with one exception: when
comments that start on the line of a token go on to the block, the import has no documentation. -/
theorem imports_below_block {source : List Char} {packageName : String} {specs : List ImportSpec}
    {last : Nat} (h : IsWholeHeader source packageName specs last) (b : BlockedImport)
    {header : Header} (hparse : Header.parse (String.ofList (source ++ b.chars)) = .ok header) :
    ∃ doc more, header = ⟨packageName, specs ++ ⟨"C", doc⟩ :: more⟩ ∧
      (doc = none ↔ Token.Trails (pendingComments source) last) ∧
      ∀ text, doc = some text → CommentLine.texts b.block <:+ Text.splitAt '\n' text := by
  obtain ⟨hprevious, hgroup⟩ := h.pending_lt
  -- The group `g` of comments that is pending at the import ends with the block; it is dropped only
  -- when it started on the line of a token.
  obtain ⟨g, hpending, hlast, hsuffix, hstarts⟩ :=
    Token.pending_lexemes b.block_ne_nil hprevious hgroup
  obtain ⟨later, hdocumented⟩ := b.documented_chars hpending
  rw [h.parse_append, hdocumented, Header.importDecls_of_literal] at hparse
  cases hlater : Header.importDecls (Lexeme.lex last b.chars).2 later with
  | error e =>
    rw [hlater] at hparse
    cases hparse
  | ok more =>
    rw [hlater] at hparse
    refine ⟨_, more, (Except.ok.inj hparse).symm, ?_, fun text htext => ?_⟩
    · rw [← hstarts, CommentGroup.doc?]
      cases g.startsLine <;> simp [hlast]
    · rw [CommentGroup.doc?] at htext
      split at htext
      · rw [← Option.some.inj htext]
        exact CommentLine.texts_suffix_splitAt b.block_ne_nil hsuffix
      · cases htext

/-- One directive above the import. -/
def directiveBlock : BlockedImport where
  block := [⟨[], " #cgo LDFLAGS: -lm".toList, nofun, List.not_mem_nil, by decide⟩]
  indent := []
  gap := [' ']
  following := ['\n']
  block_ne_nil := List.cons_ne_nil _ _
  indent_blank := nofun
  indent_line := List.not_mem_nil
  gap_blank := List.forall_mem_singleton.mpr (by decide)

theorem imports_below_block_directiveBlock :
    let source := "package d // x\n\nimport \"e\" // y\n\n".toList
    let header : Header := ⟨"d", [⟨"e", none⟩, ⟨"C", some " #cgo LDFLAGS: -lm"⟩]⟩
    IsWholeHeader source "d" [⟨"e", none⟩] 5 ∧
      Header.parse (String.ofList (source ++ directiveBlock.chars)) = .ok header ∧
      ∃ doc more, header = ⟨"d", [⟨"e", none⟩] ++ ⟨"C", doc⟩ :: more⟩ ∧
        (doc = none ↔ Token.Trails (pendingComments source) 5) ∧
        ∀ text, doc = some text →
          CommentLine.texts directiveBlock.block <:+ Text.splitAt '\n' text := by
  intro source header
  have hwhole : IsWholeHeader source "d" [⟨"e", none⟩] 5 := by
    refine ⟨by decide, by decide +kernel, ⟨.name "package", 1, none⟩, ⟨.name "d", 1, none⟩,
      [⟨.name "import", 3, none⟩, ⟨.literal "e", 3, none⟩], by decide +kernel, rfl, rfl, ?_⟩
    have hdecl : Header.importDecl (.complete 5) none [⟨.literal "e", 3, none⟩] =
        .ok ([⟨"e", none⟩], []) := rfl
    exact Header.Declares.decl (t := ⟨.name "import", 3, none⟩) rfl hdecl .nil
  have hparse : Header.parse (String.ofList (source ++ directiveBlock.chars)) = .ok header := by
    decide +kernel
  exact ⟨hwhole, hparse, imports_below_block hwhole directiveBlock hparse⟩

/-- A comment that trails the package clause takes the directive from the import. -/
theorem imports_below_trailing_comment :
    let source := "package d // x\n".toList
    IsWholeHeader source "d" [] 2 ∧
      Header.parse (String.ofList (source ++ directiveBlock.chars)) = .ok ⟨"d", [⟨"C", none⟩]⟩ := by
  intro source
  exact ⟨⟨by decide, by decide +kernel, ⟨.name "package", 1, none⟩, ⟨.name "d", 1, none⟩, [],
    by decide +kernel, rfl, rfl, .nil⟩, by decide +kernel⟩

end GoBuildRules
