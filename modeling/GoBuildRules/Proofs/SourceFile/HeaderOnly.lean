import GoBuildRules.Proofs.Constraint.Reading
import GoBuildRules.Proofs.Header.DocBlock
import GoBuildRules.Proofs.Header.Grammar
import GoBuildRules.Proofs.Text.Lines
import GoBuildRules.SourceFile.Basic

/-!
# The record of a Go file depends on its header

A Go file is read twice, for its header and for its build lines, and neither reading looks past the
first word after the header (`ofGo_eq_of_isHeaderUpTo`). The header is read token by token, and the
word is a token whatever follows it (`IsHeaderUpTo.exists_parse`). The build lines end where the
first line stands that is neither blank nor a comment, which the package clause is at the latest
(`Lexeme.exists_startsCode`).
-/

namespace GoBuildRules

open Header Lexeme

/-! ## Lexemes -/

namespace Lexeme

variable {line last n : Nat} {cs ds : List Char} {ls : List Lexeme} {name : String}

/-- A text that ends in an identifier is lexed the same before a text that does not continue it. -/
theorem lex_append_of_name (h : lex line cs = (ls ++ [.token (.name name) n], .complete last))
    (hds : EndsName ds) :
    lex line (cs ++ ds) =
      (ls ++ [.token (.name name) n] ++ (lex last ds).1, (lex last ds).2) := by
  refine lex_append_of_last h fun c rest s m _ _ hscans hnil hlast => ?_
  rw [List.getLast?_concat] at hlast
  have hitem := Option.some.inj hlast
  cases hscans with
  | name _ hname =>
    have hsplit := List.takeWhile_append_dropWhile (p := Text.continuesName) (l := rest)
    have hnil : rest.dropWhile Text.continuesName = [] := hnil
    rw [hnil, List.append_nil] at hsplit
    have hall : ∀ d ∈ rest, Text.continuesName d = true := fun d hd =>
      List.all_eq_true.mp List.all_takeWhile d (hsplit.symm ▸ hd)
    obtain ⟨htake, hdrop⟩ := takeWhile_append_of_all hall hds
    have hlonger := Scans.name (rest ++ ds) hname
    rw [htake, hdrop] at hlonger
    simpa only [hsplit] using hlonger
  | lineComment | blockComment | slash | quoted | raw | number | mark => cases hitem

end Lexeme

/-! ## Build lines -/

/-- Before a line ends in the text there is something other than blanks and line comments. -/
inductive StartsCode : List Char → Prop
  | blank {c : Char} {cs : List Char} (hblank : Text.isBlank c = true) (hfeed : c ≠ '\n')
      (h : StartsCode cs) : StartsCode (c :: cs)
  | blockComment (cs : List Char) : StartsCode ('/' :: '*' :: cs)
  | word {c : Char} (cs : List Char) (hblank : Text.isBlank c = false) (hslash : c ≠ '/') :
    StartsCode (c :: cs)

namespace StartsCode

variable {cs : List Char}

theorem append (h : StartsCode cs) (ds : List Char) : StartsCode (cs ++ ds) := by
  induction h with
  | blank hblank hfeed _ ih => exact .blank hblank hfeed ih
  | blockComment cs => exact .blockComment _
  | word cs hblank hslash => exact .word _ hblank hslash

theorem ne_nil (h : StartsCode cs) : cs ≠ [] := by
  cases h <;> exact List.cons_ne_nil _ _

theorem head_ne (h : StartsCode cs) : ∀ c ∈ cs.head?, c ≠ '\n' := by
  cases h with
  | blank hblank hfeed h =>
    rintro _ ⟨⟩
    exact hfeed
  | blockComment cs =>
    rintro _ ⟨⟩
    decide
  | word cs hblank hslash =>
    rintro _ ⟨⟩ rfl
    exact absurd hblank (by decide)

/-- The first line of the text does not belong to the comments at the top of a file. -/
theorem isLeading_eq_false (h : StartsCode cs) :
    BuildLine.isLeading (Text.trim (cs.takeWhile (· != '\n'))) = false := by
  induction h with
  | @blank c cs hblank hfeed _ ih =>
    have hgap : ∀ d ∈ [c], Text.isBlank d = true := List.forall_mem_singleton.mpr hblank
    rw [List.takeWhile_cons_of_pos (by simpa using hfeed), ← List.singleton_append,
      Text.trim_blanks_append hgap, ih]
  | blockComment cs =>
    rw [List.takeWhile_cons_of_pos (by decide), List.takeWhile_cons_of_pos (by decide),
      Text.trim_cons_cons (by decide) (by decide), Text.trim_cons (by decide)]
    rfl
  | @word c cs hblank hslash =>
    have hfeed : (c != '\n') = true := by
      rw [bne_iff_ne]
      rintro rfl
      exact absurd hblank (by decide)
    rw [List.takeWhile_cons_of_pos (p := (· != '\n')) hfeed, Text.trim_cons hblank,
      BuildLine.isLeading, List.isPrefixOf]
    simp [Ne.symm hslash]

/-- So the comments at the top of a file do not reach into the text. -/
theorem startsOutside (h : StartsCode cs) : BuildLine.StartsOutside cs := by
  obtain ⟨first, rest, hlines, htrim⟩ := Text.exists_lines_eq_cons h.ne_nil
  rw [BuildLine.StartsOutside, hlines]
  rintro _ ⟨⟩ hopening
  have hleading := h.isLeading_eq_false
  rw [← htrim, BuildLine.isLeading_trim_iff.mpr hopening] at hleading
  cases hleading

end StartsCode

/-- A text whose first token is an identifier starts with lines that hold nothing but blanks and
line comments, and the next line is one of code. -/
theorem Lexeme.exists_startsCode {line : Nat} {cs : List Char} {name : String}
    {ks : List TokenKind} (h : kinds (lex line cs).1 = .name name :: ks) :
    ∃ top code, cs = top ++ code ∧ Text.EndsLine top ∧ StartsCode code := by
  fun_induction lex line cs with
  | case1 line => cases h
  | case2 line c cs hblank ih =>
    obtain ⟨top, code, rfl, hends, hcode⟩ := ih h
    by_cases hfeed : c = '\n'
    · subst hfeed
      exact ⟨'\n' :: top, code, rfl, hends.feed_cons, hcode⟩
    · cases top with
      | nil => exact ⟨[], c :: code, rfl, Text.EndsLine.nil, .blank hblank hfeed hcode⟩
      | cons d top =>
        have hlonger : Text.EndsLine ([c] ++ d :: top) := hends.append (List.cons_ne_nil d top)
        exact ⟨c :: d :: top, code, rfl, hlonger, hcode⟩
  | case3 line c cs hblank fault hscan => cases h
  | case4 line c cs hblank s hscan hle later =>
    rename_i ih
    rw [Bool.not_eq_true] at hblank
    cases scan_eq_ok_iff.mp hscan with
    | lineComment body =>
      obtain ⟨top, code, heq, hends, hcode⟩ := ih h
      have heq : body.dropWhile (· != '\n') = top ++ code := heq
      -- The line feed that ends the comment is no part of the code.
      have htop : top ≠ [] := by
        rintro rfl
        have hhead := List.head?_dropWhile_not (· != '\n') body
        obtain ⟨c, code, rfl⟩ := List.exists_cons_of_ne_nil hcode.ne_nil
        rw [heq] at hhead
        exact hcode.head_ne c rfl (by simpa using hhead)
      have hlonger : Text.EndsLine ('/' :: '/' :: body.takeWhile (· != '\n') ++ top) :=
        hends.append htop
      refine ⟨_, code, ?_, hlonger, hcode⟩
      rw [List.append_assoc, ← heq, List.cons_append, List.cons_append,
        List.takeWhile_append_dropWhile]
    | blockComment hcut => exact ⟨[], _, rfl, Text.EndsLine.nil, .blockComment _⟩
    | name cs hname =>
      have hslash : c ≠ '/' := by
        rintro rfl
        exact absurd hname (by decide)
      exact ⟨[], _, rfl, Text.EndsLine.nil, .word cs hblank hslash⟩
    | slash | quoted | raw | number | mark => cases h

/-! ## Files -/

/-- The tokens of the text are those of a header and then an identifier, which declares no further
imports. -/
structure IsHeaderUpTo (source : List Char) (tree : HeaderTree) (keyword : String) : Prop where
  keyword_ne : keyword ≠ "import"
  exists_lexemes : ∃ header line last,
    lex 1 source = (header ++ [.token (.name keyword) line], .complete last) ∧
      kinds header = tree.words.map Word.kind

namespace IsHeaderUpTo

variable {source : List Char} {tree : HeaderTree} {keyword : String}

/-- Reading the header does not go past the identifier. -/
theorem exists_parse (h : IsHeaderUpTo source tree keyword) :
    ∃ header, ∀ rest, EndsName rest →
      Header.parse (String.ofList (source ++ rest)) = .ok header := by
  obtain ⟨ls, line, last, hlex, hkinds⟩ := h.exists_lexemes
  have htokens : (Token.documented 0 none ls).map Token.kind = tree.words.map Word.kind := by
    rw [map_kind_documented, hkinds]
  obtain ⟨header, -, -, hheader⟩ := tree.exists_ofTokens htokens
  refine ⟨header, fun rest hrest => ?_⟩
  rw [Header.parse, Token.ofSource, String.toList_ofList, lex_append_of_name hlex hrest]
  simp only [List.append_assoc, Token.documented_append]
  exact hheader _ _ (Stop.importDecls_of_name rfl h.keyword_ne)

/-- Reading the build lines does not go past the identifier either. -/
theorem exists_read (h : IsHeaderUpTo source tree keyword) :
    ∃ lines, ∀ rest, BuildLine.read (String.ofList (source ++ rest)) = lines := by
  obtain ⟨ls, line, last, hlex, hkinds⟩ := h.exists_lexemes
  have hpackage : ∃ name ks, kinds (lex 1 source).1 = .name name :: ks := by
    rw [hlex, kinds_append, hkinds]
    exact ⟨_, _, rfl⟩
  obtain ⟨name, ks, hfirst⟩ := hpackage
  obtain ⟨top, code, rfl, htop, hcode⟩ := exists_startsCode hfirst
  refine ⟨BuildLine.read (String.ofList top), fun rest => ?_⟩
  rw [List.append_assoc, BuildLine.read_append htop (hcode.append rest).startsOutside]

end IsHeaderUpTo

/-- The record of a Go file depends on what is read for the header and on the build lines. -/
theorem SourceFile.ofGo_congr {read : HeaderReader} {content content' : String}
    (hread : read content = read content')
    (hlines : BuildLine.read content = BuildLine.read content') (config : Config) (dir : Path)
    (name : String) : ofGo read config dir name content = ofGo read config dir name content' := by
  simp only [ofGo, hread, hlines]

/-- **The record of a Go file depends on its header alone.** Two contents that agree up to the first
word after the header have the same record or the same error, whatever follows that word. -/
theorem SourceFile.ofGo_eq_of_isHeaderUpTo (config : Config) (dir : Path) (name : String)
    {source : List Char} {tree : HeaderTree} {keyword : String}
    (h : IsHeaderUpTo source tree keyword) {first second : List Char} (hfirst : EndsName first)
    (hsecond : EndsName second) :
    ofGo Header.parse config dir name (String.ofList (source ++ first)) =
      ofGo Header.parse config dir name (String.ofList (source ++ second)) := by
  obtain ⟨header, hheader⟩ := h.exists_parse
  obtain ⟨lines, hlines⟩ := h.exists_read
  exact ofGo_congr ((hheader first hfirst).trans (hheader second hsecond).symm)
    ((hlines first).trans (hlines second).symm) config dir name

/-- A header with one import of `"C"`, which has an alias. -/
def aliasedCgo : HeaderTree where
  name := ⟨'d', [], by decide, nofun⟩
  leading := 0
  decls := [(.single ⟨some (.name ⟨'_', [], by decide, nofun⟩), .quoted "C"⟩, 0)]

theorem SourceFile.ofGo_eq_of_isHeaderUpTo_aliasedCgo :
    let source :=
      "// +build linux\n\npackage d\n\n// #cgo LDFLAGS: -lm\nimport _ \"C\"\nfunc".toList
    let config : Config := { goPrefix := "", repoRoot := .ofText "/repo" }
    let second := "(\n\n// +build arm\n\nimport \"e\" /*".toList
    IsHeaderUpTo source aliasedCgo "func" ∧ EndsName second ∧
      ofGo Header.parse config (.ofText "/repo/d") "a.go" (String.ofList (source ++ [])) =
        ofGo Header.parse config (.ofText "/repo/d") "a.go" (String.ofList (source ++ second)) := by
  intro source config second
  have hsource : IsHeaderUpTo source aliasedCgo "func" := by
    refine ⟨by decide, [.comment ⟨1, 1, [" +build linux"]⟩, .token (.name "package") 3,
      .token (.name "d") 3, .comment ⟨5, 5, [" #cgo LDFLAGS: -lm"]⟩, .token (.name "import") 6,
      .token (.name "_") 6, .token (.literal "C") 6], 7, 7, ?_, ?_⟩
    · decide +kernel
    · decide
  have hsecond : EndsName second := by
    rintro _ ⟨⟩
    decide
  exact ⟨hsource, hsecond,
    ofGo_eq_of_isHeaderUpTo config (.ofText "/repo/d") "a.go" hsource nofun hsecond⟩

end GoBuildRules
