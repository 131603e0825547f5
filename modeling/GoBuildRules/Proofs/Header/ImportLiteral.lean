import GoBuildRules.Proofs.Header.Grammar

/-!
# The literal of an import

A source text with one import (`ImportSite`): a package clause, and a declaration with a string
literal between double quotes as the path. The words around the literal may be laid out in any way,
and anything may follow the header.

However the bytes of a text are spelled in the literal, the text is the path that is imported, and
with a backslash that starts no escape the header cannot be read (`ImportSite.parse_source`).
-/

namespace GoBuildRules

open Header Lexeme Literal

/-- A text with the words of a header before what follows it is read as the header. -/
theorem HeaderTree.exists_parse_of_spells (tree : HeaderTree) (stop : Stop) {cs : List Char}
    (h : Spells cs ((tree.words ++ stop.words).map Word.kind) stop.chars) :
    ∃ header, Header.parse (String.ofList (cs ++ stop.chars)) = .ok header ∧
      header.packageName = tree.name.text ∧ header.imports.map ImportSpec.path = tree.paths := by
  obtain ⟨ls, last, hkinds, hlex⟩ := h 1
  have htokens : (Token.documented 0 none (ls ++ (lex last stop.chars).1)).map Token.kind =
      tree.words.map Word.kind ++ (stop.words.map Word.kind ++ kinds (lex last stop.chars).1) := by
    rw [map_kind_documented, kinds_append, hkinds, List.map_append, List.append_assoc]
  obtain ⟨ts, more, heq, hts, hmore⟩ := List.map_eq_append_iff.mp htokens
  obtain ⟨header, hname, hpaths, hheader⟩ := tree.exists_ofTokens hts
  refine ⟨header, ?_, hname, hpaths⟩
  rw [Header.parse, Token.ofSource, String.toList_ofList, hlex]
  simp only [heq]
  exact hheader _ more (stop.importDecls_eq hmore)

/-! ## The words around the literal -/

/-- How a declaration with one import is written. -/
inductive ImportForm where
  | single (alias? : Option Alias)
  /-- Between parentheses, with semicolons before and after the import. -/
  | group (leading : Nat) (alias? : Option Alias) (trailing : Nat)

namespace ImportForm

/-- The words between the keyword and the literal. -/
def before : ImportForm → List Word
  | single alias? => (alias?.map Alias.word).toList
  | group leading alias? _ =>
    .mark .opening :: (semicolons leading ++ (alias?.map Alias.word).toList)

/-- The words after the literal. -/
def after : ImportForm → List Word
  | single _ => []
  | group _ _ trailing => semicolons trailing ++ [.mark .closing]

/-- The declaration with the path. -/
def decl (form : ImportForm) (path : String) : DeclTree :=
  match form with
  | single alias? => .single ⟨alias?, .quoted path⟩
  | group leading alias? trailing => .group leading [(⟨alias?, .quoted path⟩, trailing)]

theorem body_decl (form : ImportForm) (path : String) :
    (form.decl path).body = form.before ++ .literal (.quoted path) :: form.after := by
  cases form with
  | single alias? => rfl
  | group leading alias? trailing =>
    simp [decl, DeclTree.body, DeclTree.groupWords, ImportTree.words, before, after]

theorem paths_decl (form : ImportForm) (path : String) : (form.decl path).paths = [path] := by
  cases form <;> rfl

end ImportForm

/-- The words up to the literal of a header with one import. -/
def importFront (name : Identifier) (leading : Nat) (form : ImportForm) : List Word :=
  .name .package :: .name name :: (semicolons leading ++ .name .import :: form.before)

/-- A source text with one import, without what is between the quotes of its literal. -/
structure ImportSite where
  name : Identifier
  /-- The number of semicolons after the package clause. -/
  leading : Nat
  form : ImportForm
  /-- The number of semicolons after the declaration. -/
  trailing : Nat
  stop : Stop
  front : Layout (importFront name leading form)
  /-- What stands directly before the literal. -/
  gap : List Filler
  back : Layout (form.after ++ (semicolons trailing ++ stop.words))

namespace ImportSite

variable (site : ImportSite)

/-- The text up to the opening quote. -/
def opened : List Char :=
  site.front.chars ++ (site.gap.flatMap Filler.chars ++ ['"'])

/-- The text from the closing quote. -/
def closed : List Char :=
  '"' :: (site.back.chars ++ site.stop.chars)

/-- The source text with the characters between the quotes. -/
def source (body : List Char) : String :=
  String.ofList (site.opened ++ body ++ site.closed)

/-- The header that the source text is written from. -/
def tree (path : String) : HeaderTree where
  name := site.name
  leading := site.leading
  decls := [(site.form.decl path, site.trailing)]

theorem words_tree (path : String) : (site.tree path).words ++ site.stop.words =
    importFront site.name site.leading site.form ++ ([.literal (.quoted path)] ++
      (site.form.after ++ (semicolons site.trailing ++ site.stop.words))) := by
  simp [HeaderTree.words, HeaderTree.declWords, tree, importFront, ImportForm.body_decl]

theorem paths_tree (path : String) : (site.tree path).paths = [path] := by
  simp [HeaderTree.paths, tree, ImportForm.paths_decl]

/-! ## The literal is the path -/

theorem endsName_gap (gap : List Filler) (ds : List Char) :
    EndsName (gap.flatMap Filler.chars ++ '"' :: ds) := by
  cases gap with
  | nil =>
    rintro _ ⟨⟩
    decide
  | cons f gap =>
    rw [List.flatMap_cons, List.append_assoc]
    exact f.endsName _

/-- The tokens before the literal. -/
theorem spells_front (ds : List Char) :
    Spells (site.front.chars ++ site.gap.flatMap Filler.chars)
      ((importFront site.name site.leading site.form).map Word.kind) ('"' :: ds) := by
  have hfront := site.front.spells fun _ _ _ => endsName_gap site.gap ds
  have hspells := hfront.append (spells_gap site.gap _)
  rwa [List.append_nil] at hspells

theorem parse_source_of_spelling {body : List Char} {s : String}
    (h : Spelling body (Utf8.encode s)) :
    ∃ doc, Header.parse (site.source body) = .ok ⟨site.name.text, [⟨s, doc⟩]⟩ := by
  have hback := site.back.spells fun _ _ _ => site.stop.endsName
  have hspells := (site.spells_front _).append ((spells_quoted h _).append hback)
  -- The pieces around the literal, put together, are the words of a header tree.
  have hkinds : (importFront site.name site.leading site.form).map Word.kind ++
      ([TokenKind.literal s] ++ (site.form.after ++
        (semicolons site.trailing ++ site.stop.words)).map Word.kind) =
      ((site.tree s).words ++ site.stop.words).map Word.kind := by
    simp [words_tree, Word.kind, StringLiteral.text]
  rw [hkinds] at hspells
  obtain ⟨⟨name, imports⟩, hparse, rfl, hpaths⟩ :=
    (site.tree s).exists_parse_of_spells site.stop hspells
  rw [paths_tree] at hpaths
  obtain ⟨⟨path, doc⟩, rfl, rfl⟩ := List.map_eq_singleton_iff.mp hpaths
  have hsource : site.source body = String.ofList (site.front.chars ++
      site.gap.flatMap Filler.chars ++ ('"' :: (body ++ ['"']) ++ site.back.chars) ++
      site.stop.chars) := by
    simp [source, opened, closed]
  exact ⟨doc, hsource ▸ hparse⟩

end ImportSite

/-! ## Declarations that end before their literal -/

namespace Alias

theorem isAlias_kind (a : Alias) : isAlias a.word.kind = true := by
  cases a <;> rfl

/-- Of the marks only a dot is an alias. -/
theorem kind_ne (a : Alias) {m : Mark} (hm : m ≠ .dot) : a.word.kind ≠ .mark m.char := by
  cases a with
  | name i => nofun
  | dot => cases m <;> first | exact absurd rfl hm | decide

end Alias

namespace ImportForm

variable {ts : List Token} {ks : List TokenKind} {alias? : Option Alias} {e : HeaderError}

theorem importSpec_of_alias
    (h : ts.map Token.kind = (alias?.map Alias.word).toList.map Word.kind) :
    importSpec (.broken e) ts = .error e := by
  cases alias? with
  | none =>
    obtain rfl := List.map_eq_nil_iff.mp h
    rfl
  | some a =>
    obtain ⟨t, rfl, hkind⟩ := List.map_eq_singleton_iff.mp h
    rw [importSpec, if_pos (hkind ▸ a.isAlias_kind)]
    rfl

theorem importGroup_of_alias
    (h : ts.map Token.kind = (alias?.map Alias.word).toList.map Word.kind) :
    importGroup (.broken e) ts = .error e := by
  have hspec := importSpec_of_alias (e := e) h
  cases alias? with
  | none =>
    obtain rfl := List.map_eq_nil_iff.mp h
    rw [importGroup]
    rfl
  | some a =>
    obtain ⟨t, rfl, hkind⟩ := List.map_eq_singleton_iff.mp h
    -- An alias is neither of the marks that are tested before an import is read.
    rw [importGroup]
    split
    · exact absurd (hkind.symm.trans ‹_›) (a.kind_ne (m := .closing) (by decide))
    · exact absurd (hkind.symm.trans ‹_›) (a.kind_ne (m := .semicolon) (by decide))
    · split
      · rename_i other herror
        obtain rfl := Except.error.inj (hspec.symm.trans herror)
        rfl
      · rename_i hok
        cases hspec.symm.trans hok

/-- A declaration that ends before its literal cannot be read. -/
theorem importDecl_of_before (form : ImportForm) (doc : Option String)
    (h : ts.map Token.kind = form.before.map Word.kind) :
    importDecl (.broken e) doc ts = .error e := by
  cases form with
  | single alias? =>
    have hhead : ∀ t ∈ ts.head?, t.kind ≠ .mark '(' := by
      cases alias? with
      | none =>
        obtain rfl := List.map_eq_nil_iff.mp h
        nofun
      | some a =>
        obtain ⟨t, rfl, hkind⟩ := List.map_eq_singleton_iff.mp h
        rintro _ ⟨⟩ hopening
        exact a.kind_ne (m := .opening) (by decide) (hkind.symm.trans hopening)
    rw [importDecl_of_not_group hhead, importSpec_of_alias h]
    rfl
  | group leading alias? trailing =>
    obtain ⟨⟨kind, line, tokenDoc⟩, us, rfl, hkind, hus⟩ := List.map_eq_cons_iff.mp h
    obtain rfl : kind = .mark '(' := hkind
    rw [List.map_append] at hus
    obtain ⟨rest, hsemicolons, hrest⟩ := exists_importGroup_semicolons (.broken e) leading hus
    simp only [importDecl, hsemicolons, importGroup_of_alias hrest]
    rfl

/-- Semicolons before declarations are passed over. -/
theorem exists_importDecls_semicolons (ending : Ending) (n : Nat)
    (h : ts.map Token.kind = (semicolons n).map Word.kind ++ ks) :
    ∃ rest, importDecls ending ts = importDecls ending rest ∧ rest.map Token.kind = ks := by
  induction n generalizing ts with
  | zero => exact ⟨ts, rfl, h⟩
  | succ n ih =>
    obtain ⟨t, us, rfl, hkind, hus⟩ := List.map_eq_cons_iff.mp h
    have hsemicolon : t.kind = .mark ';' := hkind
    obtain ⟨rest, hdecls, hrest⟩ := ih hus
    exact ⟨rest, by rw [importDecls, if_pos hsemicolon, hdecls], hrest⟩

/-- A header that ends before the literal of its first import cannot be read. -/
theorem ofTokens_of_front {name : Identifier} {leading : Nat} {form : ImportForm}
    (h : ts.map Token.kind = (importFront name leading form).map Word.kind) :
    ofTokens (.broken e) ts = .error e := by
  obtain ⟨keyword, us, rfl, hkeyword, hus⟩ := List.map_eq_cons_iff.mp h
  obtain ⟨t, vs, rfl, hname, hvs⟩ := List.map_eq_cons_iff.mp hus
  have hpackage : keyword.kind = .name "package" := hkeyword
  rw [List.map_append] at hvs
  obtain ⟨rest, hdecls, hrest⟩ := exists_importDecls_semicolons (.broken e) leading hvs
  obtain ⟨decl, before, rfl, himport, hbefore⟩ := List.map_eq_cons_iff.mp hrest
  rw [ofTokens, if_pos hpackage]
  simp only [hname, Word.kind]
  rw [hdecls, importDecls_of_error himport (form.importDecl_of_before decl.doc hbefore)]
  rfl

end ImportForm

/-! ## The literal is malformed -/

namespace ImportSite

variable (site : ImportSite)

theorem exists_parse_of_noEscape {good rest : List Char} {bytes : List UInt8} {c : Char}
    (hgood : Spelling good bytes) (h : NoEscape (c :: rest)) :
    ∃ line, Header.parse (String.ofList (site.opened ++ (good ++ '\\' :: c :: rest))) =
      .error (.unknownEscape line c) := by
  have hread : read (good ++ '\\' :: c :: rest) = .error (.unknownEscape c) :=
    read_eq_error_iff.mpr ⟨good, bytes, _, rfl, hgood, .escape h⟩
  obtain ⟨ls, last, hkinds, hlex⟩ := site.spells_front (good ++ '\\' :: c :: rest) 1
  rw [lex_fault (by decide) (scan_quoted_error hread), List.append_nil] at hlex
  have htokens : (Token.documented 0 none ls).map Token.kind =
      (importFront site.name site.leading site.form).map Word.kind := by
    rw [map_kind_documented, hkinds]
  have hopened : site.opened ++ (good ++ '\\' :: c :: rest) =
      site.front.chars ++ site.gap.flatMap Filler.chars ++ '"' :: (good ++ '\\' :: c :: rest) := by
    simp [opened]
  refine ⟨last, ?_⟩
  rw [Header.parse, Token.ofSource, String.toList_ofList, hopened, hlex]
  exact ImportForm.ofTokens_of_front htokens

/-- **A path is read from every spelling of it.** However the bytes of a text are spelled between
the double quotes of an import, by characters that stand for themselves and by escapes of bytes and
of characters, the text is the path that is imported. After such characters and escapes, a backslash
that starts no escape is an error with the character behind it, whatever follows. The numbers that
are read on the way, digit by digit, fit in 32 bits. -/
theorem parse_source :
    (∀ body s, Spelling body (Utf8.encode s) →
      ∃ doc, Header.parse (site.source body) = .ok ⟨site.name.text, [⟨s, doc⟩]⟩) ∧
    (∀ good bytes c rest, Spelling good bytes → NoEscape (c :: rest) →
      ∃ line, Header.parse (String.ofList (site.opened ++ (good ++ '\\' :: c :: rest))) =
        .error (.unknownEscape line c)) ∧
    ∀ base count cs n, 1 < base → base ≤ 16 → count < 8 → number? base count cs = some n →
      ∀ digit < base, n * base + digit < 2 ^ 32 :=
  ⟨fun _ _ h => site.parse_source_of_spelling h,
    fun _ _ _ _ hgood h => site.exists_parse_of_noEscape hgood h,
    fun _ _ _ _ hbase hle hcount h _ hdigit => mul_add_lt_of_number? hbase hle hcount h hdigit⟩

/-- Words with a space before each, but not before the literal, and nothing after the header. -/
def spaced (name : Identifier) (form : ImportForm) : ImportSite where
  name := name
  leading := 0
  form := form
  trailing := 0
  stop := .atEnd []
  front := default
  gap := []
  back := default

/-- A character that is spelled by two escapes of bytes, and an octal escape that is no byte. -/
theorem parse_source_splitCharacter :
    let site := spaced .package (.single none)
    let body := "\\303\\xA9/\\u65e5".toList
    Spelling body (Utf8.encode "é/日") ∧
      (∃ doc, Header.parse (site.source body) = .ok ⟨"package", [⟨"é/日", doc⟩]⟩) ∧
      NoEscape "400\"".toList ∧
      ∃ line, Header.parse (String.ofList (site.opened ++ (body ++ '\\' :: "400\"".toList))) =
        .error (.unknownEscape line '4') := by
  have hbody : Spelling "\\303\\xA9/\\u65e5".toList (Utf8.encode "é/日") := by
    have hoctal : IsEscape "303".toList [0xc3] := .octal rfl ⟨[3, 0, 3], by decide, rfl⟩
    have hhex : IsEscape "xA9".toList [0xa9] := .hex rfl ⟨[10, 9], by decide, rfl⟩
    have hchar : IsEscape "u65e5".toList (String.utf8EncodeChar '日') :=
      .shortCodePoint rfl ⟨[6, 5, 14, 5], by decide, rfl⟩
    have hslash := Spelling.plain (c := '/') (by decide) (by decide) (by decide)
      (.escape hchar .nil)
    exact .escape hoctal (.escape hhex hslash)
  have hnone : NoEscape "400\"".toList := by decide
  obtain ⟨hspelled, hbroken, -⟩ := parse_source (spaced .package (.single none))
  exact ⟨hbody, hspelled _ _ hbody, hnone, hbroken _ _ _ _ hbody hnone⟩

end ImportSite

end GoBuildRules
