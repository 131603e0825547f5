import GoBuildRules.Proofs.Header.Documentation

/-!
# The lines of header errors

A header that cannot be read has an item at which reading fails: a token that stands where another
one is expected (`Rejects`), the end of the text there, or a comment or literal that is malformed
(`IsMalformed`). The error says what is wrong with the item (`Blames`), and its line is the one on
which the item starts (`Header.parse_error_line`).

Where the tokens go wrong is found by one lemma for each reader, as their tokens are where they do
not.
-/

namespace GoBuildRules

open Lexeme

/-! ## Malformed comments and literals -/

/-- The text starts with a comment or a literal that is malformed. -/
inductive IsMalformed : List Char → Lexeme.Fault → Prop
  | comment {body : List Char} (h : ¬ ['*', '/'] <:+: body) :
    IsMalformed ('/' :: '*' :: body) .unterminatedComment
  | raw {body : List Char} (h : '\x60' ∉ body) :
    IsMalformed ('\x60' :: body) (.literal .unterminated)
  | quoted {body rest : List Char} {bytes : List UInt8} {fault : Literal.Fault}
      (hbody : Literal.Spelling body bytes) (h : Literal.Breaks rest fault) :
    IsMalformed ('"' :: (body ++ rest)) (.literal fault)

theorem isMalformed_of_scan {c : Char} {cs : List Char} {fault : Lexeme.Fault}
    (h : scan c cs = .error fault) : IsMalformed (c :: cs) fault := by
  -- The ways to read a lexeme that can fail are the comment between `/*` and `*/` and the literals.
  unfold scan at h
  split at h
  · rename_i hslash
    subst hslash
    split at h
    · cases h
    · split at h
      · rename_i hcut
        obtain rfl := Except.error.inj h
        exact .comment (Text.not_infix_of_cutAt_eq_none hcut)
      · cases h
    · cases h
  · split at h
    · cases h
    · split at h
      · rename_i hquote
        subst hquote
        split at h
        · rename_i other hread
          obtain rfl := Except.error.inj h
          obtain ⟨body, bytes, rest, rfl, hbody, hbreaks⟩ := Literal.read_eq_error_iff.mp hread
          exact .quoted hbody hbreaks
        · cases h
      · split at h
        · rename_i hraw
          subst hraw
          split at h
          · rename_i hcut
            obtain rfl := Except.error.inj h
            refine .raw fun hmem => Text.not_infix_of_cutAt_eq_none hcut ?_
            obtain ⟨first, later, rfl⟩ := List.append_of_mem hmem
            exact ⟨first, later, by simp⟩
          · cases h
        · split at h <;> cases h

/-! ## Tokens that stand where another one is expected -/

/-- A path is expected after the tokens of an import, and what is found is none. -/
inductive LacksPath : List Entry → Option TokenKind → Prop
  | first {found : Option TokenKind}
      (h : ∀ kind ∈ found, Header.isAlias kind = false ∧ ∀ path, kind ≠ .literal path) :
    LacksPath [] found
  | afterAlias {e : Entry} {found : Option TokenKind} (he : Header.isAlias e.kind = true)
      (h : ∀ path, found ≠ some (.literal path)) : LacksPath [e] found

/-- A path is expected after the tokens that follow the keyword of a declaration, and what is found
is neither one nor, where such a mark may stand there, a parenthesis or a semicolon. -/
inductive DeclLacksPath : List Entry → Option TokenKind → Prop
  | single {es : List Entry} {found : Option TokenKind} (h : LacksPath es found)
      (hopening : es = [] → found ≠ some (.mark '(')) : DeclLacksPath es found
  | group {opening : Entry} {inner es : List Entry} {imports : List ImportTokens}
      {found : Option TokenKind} (hopening : opening.kind = .mark '(')
      (hinner : ListsImports inner imports) (h : LacksPath es found)
      (hmark : es = [] → found ≠ some (.mark ')') ∧ found ≠ some (.mark ';')) :
    DeclLacksPath (opening :: (inner ++ es)) found

/-- After these tokens of a header another one is expected than what is found. -/
inductive Rejects : List Entry → Option TokenKind → (Nat → String → HeaderError) → Prop
  | package {found : Option TokenKind} (h : found ≠ some (.name "package")) :
    Rejects [] found .expectedPackage
  | packageName {keyword : Entry} {found : Option TokenKind}
      (hkeyword : keyword.kind = .name "package") (h : ∀ name, found ≠ some (.name name)) :
    Rejects [keyword] found .expectedPackageName
  | importPath (tokens : HeaderTokens) {keyword : Entry} {es : List Entry}
      {found : Option TokenKind} (hkeyword : keyword.kind = .name "import")
      (h : DeclLacksPath es found) :
    Rejects (tokens.entries ++ keyword :: es) found .expectedImportPath

/-- A header may go on after the tokens: something is expected there, or declarations may follow. -/
inductive GoesOn : List Entry → Prop
  | within {es : List Entry} {expected : Nat → String → HeaderError}
      (h : Rejects es none expected) : GoesOn es
  | after (tokens : HeaderTokens) : GoesOn tokens.entries

theorem Rejects.line_eq {es : List Entry} {found : Option TokenKind}
    {expected : Nat → String → HeaderError} (h : Rejects es found expected) (line : Nat)
    (text : String) : (expected line text).line = line := by
  cases h <;> rfl

/-- The kind of the token that stands first. -/
def headKind (es : List Entry) : Option TokenKind :=
  es.head?.map Entry.kind

theorem headKind_nil_ne (kind : TokenKind) : headKind [] ≠ some kind :=
  (Option.some_ne_none kind).symm

theorem LacksPath.at_end : LacksPath [] (headKind []) :=
  .first fun kind h => absurd h (headKind_nil_ne kind)

/-- The error where another token is expected than the one that stands first. -/
def Ending.errorAt (ending : Ending) (expected : Nat → String → HeaderError) :
    List Entry → HeaderError
  | [] => ending.error expected
  | e :: _ => e.toToken.error expected

namespace Header

variable {ending : Ending} {doc : Option String} {es : List Entry} {e : HeaderError}

theorem pathSpec_error (h : pathSpec ending doc (es.map Entry.toToken) = .error e) :
    (∀ path, headKind es ≠ some (.literal path)) ∧
      e = ending.errorAt .expectedImportPath es := by
  cases es with
  | nil =>
    obtain rfl := Except.error.inj h
    exact ⟨fun path => headKind_nil_ne _, rfl⟩
  | cons t rest =>
    rw [List.map_cons, pathSpec] at h
    split at h
    · cases h
    · rename_i hkind
      obtain rfl := Except.error.inj h
      exact ⟨fun path hpath => hkind path (Option.some.inj hpath), rfl⟩

theorem importSpec_error (h : importSpec ending (es.map Entry.toToken) = .error e) :
    ∃ before later, es = before ++ later ∧ LacksPath before (headKind later) ∧
      e = ending.errorAt .expectedImportPath later := by
  cases es with
  | nil =>
    obtain rfl := Except.error.inj h
    exact ⟨[], [], rfl, .at_end, rfl⟩
  | cons t rest =>
    rw [List.map_cons, importSpec] at h
    split at h
    · rename_i halias
      obtain ⟨hpath, rfl⟩ := pathSpec_error h
      exact ⟨[t], rest, rfl, .afterAlias halias hpath, rfl⟩
    · rename_i halias
      rw [← List.map_cons] at h
      obtain ⟨hpath, rfl⟩ := pathSpec_error h
      refine ⟨[], t :: rest, rfl, .first ?_, rfl⟩
      rintro _ ⟨⟩
      exact ⟨Bool.eq_false_iff.mpr halias, fun path hkind => hpath path (congrArg some hkind)⟩

theorem importGroup_error (h : importGroup ending (es.map Entry.toToken) = .error e) :
    ∃ inner imports before later, es = inner ++ (before ++ later) ∧ ListsImports inner imports ∧
      LacksPath before (headKind later) ∧
      (before = [] → headKind later ≠ some (.mark ')') ∧ headKind later ≠ some (.mark ';')) ∧
      e = ending.errorAt .expectedImportPath later := by
  obtain ⟨tokens, htokens⟩ : ∃ tokens, es.map Entry.toToken = tokens := ⟨_, rfl⟩
  rw [htokens] at h
  -- What has been read of the group before the error is put in front by the induction.
  fun_induction importGroup ending tokens generalizing es with
  | case1 =>
    obtain rfl := List.map_eq_nil_iff.mp htokens
    obtain rfl := Except.error.inj h
    exact ⟨[], [], [], [], rfl, .nil, .at_end,
      fun _ => ⟨headKind_nil_ne _, headKind_nil_ne _⟩, rfl⟩
  | case2 => cases h
  | case3 t later ht ih =>
    obtain ⟨first, rest, rfl, rfl, rfl⟩ := List.map_eq_cons_iff.mp htokens
    obtain ⟨inner, imports, before, later, rfl, hlists, hlacks, hmark, rfl⟩ := ih h rfl
    exact ⟨first :: inner, imports, before, later, rfl, .semicolon ht hlists, hlacks, hmark, rfl⟩
  | case4 t rest error hspec hclose hsemicolon =>
    obtain rfl := Except.error.inj h
    rw [← htokens] at hspec
    obtain ⟨before, later, rfl, hlacks, rfl⟩ := importSpec_error hspec
    refine ⟨[], [], before, later, rfl, .nil, hlacks, ?_, rfl⟩
    rintro rfl
    obtain ⟨first, others, rfl, rfl, -⟩ := List.map_eq_cons_iff.mp htokens
    exact ⟨fun heq => hclose (Option.some.inj heq), fun heq => hsemicolon (Option.some.inj heq)⟩
  | case5 t tail spec later hspec hlt hclose hsemicolon ih =>
    rw [← htokens] at hspec
    obtain ⟨i, rest, rfl, rfl, rfl⟩ := exists_importTokens hspec
    cases hgroup : importGroup ending (rest.map Entry.toToken) with
    | ok result =>
      rw [hgroup] at h
      cases h
    | error other =>
      rw [hgroup] at h
      obtain rfl := Except.error.inj h
      obtain ⟨inner, imports, before, later, rfl, hlists, hlacks, hmark, rfl⟩ := ih hgroup rfl
      exact ⟨i.entries ++ inner, i :: imports, before, later, (List.append_assoc _ _ _).symm,
        .cons i hlists, hlacks, hmark, rfl⟩

theorem importDecl_error (h : importDecl ending doc (es.map Entry.toToken) = .error e) :
    ∃ before later, es = before ++ later ∧ DeclLacksPath before (headKind later) ∧
      e = ending.errorAt .expectedImportPath later := by
  obtain ⟨tokens, htokens⟩ : ∃ tokens, es.map Entry.toToken = tokens := ⟨_, rfl⟩
  rw [htokens] at h
  -- An import in parentheses or a single one; the latter is known by not starting with `(`.
  simp only [importDecl] at h
  split at h
  · rename_i line tokenDoc tail
    obtain ⟨opening, rest, rfl, hopening, rfl⟩ := List.map_eq_cons_iff.mp htokens
    cases hgroup : importGroup ending (rest.map Entry.toToken) with
    | ok result =>
      rw [hgroup] at h
      cases h
    | error other =>
      rw [hgroup] at h
      obtain rfl := Except.error.inj h
      obtain ⟨inner, imports, before, later, rfl, hlists, hlacks, hmark, rfl⟩ :=
        importGroup_error hgroup
      exact ⟨opening :: (inner ++ before), later, by simp,
        .group (congrArg Token.kind hopening) hlists hlacks hmark, rfl⟩
  · rename_i hparen
    rw [← htokens] at h hparen
    cases hspec : importSpec ending (es.map Entry.toToken) with
    | ok result =>
      rw [hspec] at h
      cases h
    | error other =>
      rw [hspec] at h
      obtain rfl := Except.error.inj h
      obtain ⟨before, later, rfl, hlacks, rfl⟩ := importSpec_error hspec
      refine ⟨before, later, rfl, .single hlacks ?_, rfl⟩
      rintro rfl hkind
      cases later with
      | nil => cases hkind
      | cons t rest =>
        obtain ⟨kind, token, previous, comments⟩ := t
        obtain rfl : kind = .mark '(' := Option.some.inj hkind
        exact hparen _ _ _ rfl

theorem importDecls_error (h : importDecls ending (es.map Entry.toToken) = .error e) :
    (∃ body decls keyword before later, es = body ++ keyword :: (before ++ later) ∧
      ListsDecls body decls ∧ keyword.kind = .name "import" ∧
      DeclLacksPath before (headKind later) ∧ e = ending.errorAt .expectedImportPath later) ∨
    ending = .broken e ∧ ∃ decls, ListsDecls es decls := by
  obtain ⟨tokens, htokens⟩ : ∃ tokens, es.map Entry.toToken = tokens := ⟨_, rfl⟩
  rw [htokens] at h
  -- The declarations end where the tokens do, and only then the lexeme that broke off is the error.
  fun_induction importDecls ending tokens generalizing es with
  | case1 => cases h
  | case2 other hother =>
    obtain rfl := List.map_eq_nil_iff.mp htokens
    exact .inr ⟨hother.trans (congrArg Ending.broken (Except.error.inj h)), [], .nil⟩
  | case3 t rest ht ih =>
    obtain ⟨first, others, rfl, rfl, rfl⟩ := List.map_eq_cons_iff.mp htokens
    refine (ih h rfl).imp ?_ ?_
    · rintro ⟨body, decls, keyword, before, later, rfl, hlists, hrest⟩
      exact ⟨first :: body, decls, keyword, before, later, rfl, .semicolon ht hlists, hrest⟩
    · rintro ⟨hending, decls, hlists⟩
      exact ⟨hending, decls, .semicolon ht hlists⟩
  | case4 t rest hsemicolon ht other hdecl =>
    obtain rfl := Except.error.inj h
    obtain ⟨keyword, others, rfl, rfl, rfl⟩ := List.map_eq_cons_iff.mp htokens
    obtain ⟨before, later, rfl, hlacks, rfl⟩ := importDecl_error hdecl
    exact .inl ⟨[], [], keyword, before, later, rfl, .nil, ht, hlacks, rfl⟩
  | case5 t rest hsemicolon ht specs later hdecl hlt ih =>
    obtain ⟨keyword, others, rfl, rfl, rfl⟩ := List.map_eq_cons_iff.mp htokens
    obtain ⟨d, after, heq, -, rfl⟩ := exists_declTokens ht hdecl
    cases hmore : importDecls ending (after.map Entry.toToken) with
    | ok others =>
      rw [hmore] at h
      cases h
    | error other =>
      rw [hmore] at h
      obtain rfl := Except.error.inj h
      rw [heq]
      refine (ih hmore rfl).imp ?_ ?_
      · rintro ⟨body, decls, keyword, before, later, rfl, hlists, hrest⟩
        exact ⟨d.keyword :: d.body ++ body, d :: decls, keyword, before, later,
          (List.append_assoc _ _ _).symm, .cons d hlists, hrest⟩
      · rintro ⟨hending, decls, hlists⟩
        exact ⟨hending, d :: decls, .cons d hlists⟩
  | case6 => cases h

theorem ofTokens_error (h : ofTokens ending (es.map Entry.toToken) = .error e) :
    (∃ before later expected, es = before ++ later ∧ Rejects before (headKind later) expected ∧
      e = ending.errorAt expected later) ∨
    ending = .broken e ∧ ∃ tokens : HeaderTokens, es = tokens.entries := by
  -- Package clause first: each of its two tokens can be missing or another one.
  cases es with
  | nil =>
    obtain rfl := Except.error.inj h
    exact .inl ⟨[], [], _, rfl, .package (headKind_nil_ne _), rfl⟩
  | cons keyword rest =>
    by_cases hkeyword : keyword.toToken.kind = .name "package"
    · cases rest with
      | nil =>
        rw [List.map_singleton, ofTokens, if_pos hkeyword] at h
        obtain rfl := Except.error.inj h
        exact .inl ⟨[keyword], [], _, rfl,
          .packageName hkeyword fun packageName => headKind_nil_ne _, rfl⟩
      | cons name rest =>
        rw [List.map_cons, List.map_cons, ofTokens, if_pos hkeyword] at h
        split at h
        · rename_i packageName hname
          cases hdecls : importDecls ending (rest.map Entry.toToken) with
          | ok specs =>
            rw [hdecls] at h
            cases h
          | error other =>
            rw [hdecls] at h
            obtain rfl := Except.error.inj h
            refine (importDecls_error hdecls).imp ?_ ?_
            · rintro ⟨body, decls, decl, before, later, rfl, hlists, himport, hlacks, rfl⟩
              let tokens : HeaderTokens :=
                ⟨keyword, name, body, packageName, decls, hkeyword, hname, hlists⟩
              exact ⟨tokens.entries ++ decl :: before, later, _,
                by simp [tokens, HeaderTokens.entries], .importPath tokens himport hlacks, rfl⟩
            · rintro ⟨hending, decls, hlists⟩
              exact ⟨hending, ⟨keyword, name, rest, packageName, decls, hkeyword, hname, hlists⟩,
                rfl⟩
        · rename_i hname
          obtain rfl := Except.error.inj h
          refine .inl ⟨[keyword], name :: rest, _, rfl, .packageName hkeyword ?_, rfl⟩
          exact fun packageName heq => hname packageName (Option.some.inj heq)
    · simp only [List.map_cons, ofTokens.eq_def, if_neg hkeyword] at h
      obtain rfl := Except.error.inj h
      exact .inl ⟨[], keyword :: rest, _, rfl, .package fun heq => hkeyword (Option.some.inj heq),
        rfl⟩

end Header

/-! ## What an error is about -/

/-- The error on the line is about what stands in the text after the tokens. -/
inductive Blames (entries : List Entry) (line : Nat) : List Char → HeaderError → Prop
  | token {kind : TokenKind} {chars after : List Char} {expected : Nat → String → HeaderError}
      (htoken : IsToken kind chars after) (h : Rejects entries (some kind) expected) :
    Blames entries line (chars ++ after) (expected line kind.describe)
  | ending {expected : Nat → String → HeaderError} (h : Rejects entries none expected) :
    Blames entries line [] (expected line "EOF")
  | malformed {rest : List Char} {fault : Lexeme.Fault} (hentries : GoesOn entries)
      (h : IsMalformed rest fault) : Blames entries line rest (fault.errorAt line)

theorem Blames.line_eq {entries : List Entry} {line : Nat} {rest : List Char} {e : HeaderError}
    (h : Blames entries line rest e) : e.line = line := by
  cases h with
  | token _ h => exact h.line_eq line _
  | ending h => exact h.line_eq line _
  | malformed _ h => cases h with
    | comment | raw => rfl
    | quoted _ h => cases h <;> rfl

namespace Header

variable {place : Above} {rest cs : List Char} {entries : List Entry} {ending : Ending}
  {e : HeaderError}

/-- The item that an error is about, where the tokens before it have been passed. -/
theorem exists_blames (hpasses : Passes place rest .start cs entries)
    (hends : EndsAt place rest ending)
    (h : ofTokens ending (entries.map Entry.toToken) = .error e) :
    ∃ (mid : Above) (after : List Char) (before : List Entry), Passes mid after .start cs before ∧
      Blames before mid.line after e := by
  -- The error is about a token, about the end of the text, or about the lexeme that broke off.
  rcases ofTokens_error h with ⟨before, later, expected, rfl, hrejects, rfl⟩ | ⟨rfl, tokens, rfl⟩
  · cases later with
    | nil =>
      rw [List.append_nil] at hpasses
      cases hends with
      | complete => exact ⟨place, [], before, hpasses, .ending hrejects⟩
      | broken hblank hscan =>
        exact ⟨place, _, before, hpasses,
          .malformed (.within hrejects) (isMalformed_of_scan hscan)⟩
    | cons t later =>
      obtain ⟨mid, after, hmid, htoken, hbefore⟩ := hpasses.exists_entry
      have hline : t.token.first = mid.line := congrArg (Text.lineFeeds · + 1) hbefore
      refine ⟨mid, _, before, hmid, ?_⟩
      rw [← hline]
      exact .token htoken hrejects
  · cases hends with
    | broken hblank hscan =>
      exact ⟨place, _, tokens.entries, hpasses,
        .malformed (.after tokens) (isMalformed_of_scan hscan)⟩

/-- **The line of an error is the line of what it is about.** A text that has no header consists, up
to some place, of blanks, comments and tokens, and the error is about what stands there: a token, or
the end of the text, that is not what a header goes on with after those tokens, or a comment or
literal that is malformed. The line of the error is one more than the number of line feeds before
that place, so it is a line of the text. -/
theorem parse_error_line {source : String} (h : Header.parse source = .error e) :
    (∃ (place : Above) (rest : List Char) (entries : List Entry),
      Passes place rest .start source.toList entries ∧ source.toList = place.text ++ rest ∧
        Blames entries e.line rest e ∧ e.line = Text.lineFeeds place.text + 1) ∧
    1 ≤ e.line ∧ e.line ≤ Text.lineFeeds source.toList + 1 := by
  obtain ⟨entries, place, rest, hpasses, hends, hdocumented⟩ :=
    exists_passes .start source.toList
  have hsource : Token.ofSource source =
      (entries.map Entry.toToken, (lex 1 source.toList).2) := Prod.ext hdocumented rfl
  rw [parse, hsource] at h
  obtain ⟨mid, after, before, hmid, hblames⟩ := exists_blames hpasses hends h
  have htext : source.toList = mid.text ++ after := hmid.text_append.symm
  have hline : e.line = Text.lineFeeds mid.text + 1 := hblames.line_eq
  refine ⟨⟨mid, after, before, hmid, htext, ?_, hline⟩, ?_, ?_⟩
  · rw [hblames.line_eq]
    exact hblames
  · omega
  · rw [hline, htext, Text.lineFeeds_append]
    omega

/-- A bad escape in a literal below comments and another literal that go over several lines. -/
theorem parse_error_line_badEscape :
    let source := "// a\npackage/* b\n*/c\nimport \x60d\ne\x60\nimport (\n_ /*\n*/ \"\\n\\q\")"
    Header.parse source = .error (.unknownEscape 8 'q') ∧
      (∃ (place : Above) (rest : List Char) (entries : List Entry),
        Passes place rest .start source.toList entries ∧ source.toList = place.text ++ rest ∧
          Blames entries 8 rest (.unknownEscape 8 'q') ∧ 8 = Text.lineFeeds place.text + 1) ∧
      1 ≤ 8 ∧ 8 ≤ Text.lineFeeds source.toList + 1 := by
  intro source
  have h : Header.parse source = .error (.unknownEscape 8 'q') := by decide +kernel
  exact ⟨h, parse_error_line h⟩

end Header

end GoBuildRules
