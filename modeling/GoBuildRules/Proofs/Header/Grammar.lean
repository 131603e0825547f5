import GoBuildRules.Proofs.Header.Declarations
import GoBuildRules.Proofs.Header.Layout

/-!
# The grammar of headers

A header as a tree (`HeaderTree`): the package clause and the declarations of imports after it, with
any number of semicolons between them. Tokens that spell the tree are read as import declarations of
its paths (`HeaderTree.exists_declares`). So however the words of the tree are laid out, parsing the
text gives back the tree (`HeaderTree.parse_layout`).
-/

namespace GoBuildRules

open Header Lexeme

/-! ## Trees -/

/-- The keyword before the name of a package. -/
def Identifier.package : Identifier where
  first := 'p'
  rest := "ackage".toList
  starts := by decide
  continues := by decide

/-- The keyword before imports. -/
def Identifier.import : Identifier where
  first := 'i'
  rest := "mport".toList
  starts := by decide
  continues := by decide

/-- What may stand before the path of an import. -/
inductive Alias where
  | name (i : Identifier)
  | dot

/-- The alias as a word. -/
def Alias.word : Alias → Word
  | name i => .name i
  | dot => .mark .dot

/-- An import of a path, with or without an alias. -/
structure ImportTree where
  alias? : Option Alias
  path : StringLiteral

/-- The words of an import. -/
def ImportTree.words (i : ImportTree) : List Word :=
  (i.alias?.map Alias.word).toList ++ [.literal i.path]

/-- So many semicolons. -/
def semicolons (n : Nat) : List Word :=
  List.replicate n (.mark .semicolon)

/-- A declaration of imports. -/
inductive DeclTree where
  | single (i : ImportTree)
  /-- Imports between parentheses, each with the number of semicolons after it. -/
  | group (leading : Nat) (imports : List (ImportTree × Nat))

namespace DeclTree

/-- The words between the parentheses and the closing one. -/
def groupWords (imports : List (ImportTree × Nat)) : List Word :=
  (imports.flatMap fun (i, n) => i.words ++ semicolons n) ++ [.mark .closing]

/-- The words of a declaration after its keyword. -/
def body : DeclTree → List Word
  | single i => i.words
  | group leading imports => .mark .opening :: (semicolons leading ++ groupWords imports)

/-- The paths that are imported. -/
def paths : DeclTree → List String
  | single i => [i.path.text]
  | group _ imports => imports.map fun (i, _) => i.path.text

end DeclTree

/-- A header: the name of the package, and declarations, each with the number of semicolons after
it. -/
structure HeaderTree where
  name : Identifier
  leading : Nat
  decls : List (DeclTree × Nat)

namespace HeaderTree

/-- The words of declarations. -/
def declWords (decls : List (DeclTree × Nat)) : List Word :=
  decls.flatMap fun (decl, n) => .name .import :: (decl.body ++ semicolons n)

/-- The words of the header. -/
def words (tree : HeaderTree) : List Word :=
  .name .package :: .name tree.name :: (semicolons tree.leading ++ declWords tree.decls)

/-- The paths that are imported, in order. -/
def paths (tree : HeaderTree) : List String :=
  tree.decls.flatMap fun (decl, _) => decl.paths

end HeaderTree

/-! ## Reading tokens -/

section Tokens

variable {ts : List Token} {ks : List TokenKind} (ending : Ending)

/-- The import of a tree is read from its tokens. -/
theorem ImportTree.exists_importSpec (i : ImportTree)
    (h : ts.map Token.kind = i.words.map Word.kind ++ ks) :
    ∃ doc rest, importSpec ending ts = .ok (⟨i.path.text, doc⟩, rest) ∧
      rest.map Token.kind = ks := by
  obtain ⟨alias?, path⟩ := i
  -- With and without an alias the path is read last, from the tokens that are left.
  have hpath : ∀ {doc : Option String} {us : List Token},
      us.map Token.kind = .literal path.text :: ks →
      ∃ rest, pathSpec ending doc us = .ok (⟨path.text, doc⟩, rest) ∧
        rest.map Token.kind = ks := by
    intro doc us hus
    obtain ⟨t, rest, rfl, hkind, hrest⟩ := List.map_eq_cons_iff.mp hus
    exact ⟨rest, by simp only [pathSpec, hkind], hrest⟩
  cases alias? with
  | none =>
    obtain ⟨t, rest, rfl, hkind, -⟩ := List.map_eq_cons_iff.mp h
    have hnotAlias : ¬ isAlias t.kind = true := by
      rw [hkind]
      exact Bool.false_ne_true
    obtain ⟨rest', hspec, hrest'⟩ := hpath h
    exact ⟨_, rest', by rw [importSpec, if_neg hnotAlias, hspec], hrest'⟩
  | some a =>
    obtain ⟨t, rest, rfl, hkind, hrest⟩ := List.map_eq_cons_iff.mp h
    have halias : isAlias t.kind = true := by
      rw [hkind]
      cases a <;> rfl
    obtain ⟨rest', hspec, hrest'⟩ := hpath hrest
    exact ⟨_, rest', by rw [importSpec, if_pos halias, hspec], hrest'⟩

/-- Of the marks only a dot can start an import. -/
theorem ImportTree.head_kind_ne (i : ImportTree) {m : Mark} (hm : m ≠ .dot) {t : Token}
    (h : (t :: ts).map Token.kind = i.words.map Word.kind ++ ks) : t.kind ≠ .mark m.char := by
  obtain ⟨alias?, path⟩ := i
  rcases alias? with _ | i | _
  · obtain ⟨hkind, -⟩ := List.cons.inj (show _ :: _ = TokenKind.literal path.text :: _ from h)
    rw [hkind]
    nofun
  · obtain ⟨hkind, -⟩ := List.cons.inj (show _ :: _ = TokenKind.name i.text :: _ from h)
    rw [hkind]
    nofun
  · obtain ⟨hkind, -⟩ := List.cons.inj (show _ :: _ = TokenKind.mark '.' :: _ from h)
    rw [hkind]
    cases m <;> first | exact absurd rfl hm | decide

/-- Semicolons in a group are passed over. -/
theorem exists_importGroup_semicolons (n : Nat)
    (h : ts.map Token.kind = (semicolons n).map Word.kind ++ ks) :
    ∃ rest, importGroup ending ts = importGroup ending rest ∧ rest.map Token.kind = ks := by
  induction n generalizing ts with
  | zero => exact ⟨ts, rfl, h⟩
  | succ n ih =>
    obtain ⟨t, us, rfl, hkind, hus⟩ := List.map_eq_cons_iff.mp h
    obtain ⟨rest, hgroup, hrest⟩ := ih hus
    refine ⟨rest, ?_, hrest⟩
    rw [importGroup]
    simp only [hkind]
    exact hgroup

/-- The imports of a group are read from its tokens, up to its end. -/
theorem DeclTree.exists_importGroup (imports : List (ImportTree × Nat))
    (h : ts.map Token.kind = (groupWords imports).map Word.kind ++ ks) :
    ∃ specs rest, importGroup ending ts = .ok (specs, rest) ∧
      specs.map ImportSpec.path = imports.map (fun (i, _) => i.path.text) ∧
      rest.map Token.kind = ks := by
  induction imports generalizing ts with
  | nil =>
    obtain ⟨t, rest, rfl, hkind, hrest⟩ := List.map_eq_cons_iff.mp h
    refine ⟨[], rest, ?_, rfl, hrest⟩
    rw [importGroup]
    simp only [hkind]
    rfl
  | cons entry imports ih =>
    obtain ⟨i, n⟩ := entry
    have hwords : groupWords ((i, n) :: imports) =
        i.words ++ (semicolons n ++ groupWords imports) := by simp [groupWords]
    rw [hwords, List.map_append, List.append_assoc] at h
    obtain ⟨doc, later, hspec, hlater⟩ := i.exists_importSpec ending h
    cases ts with
    | nil => cases hspec
    | cons t us =>
      rw [List.map_append, List.append_assoc] at hlater
      obtain ⟨rest, hsemicolons, hrest⟩ := exists_importGroup_semicolons ending n hlater
      obtain ⟨specs, after, hgroup, hpaths, hafter⟩ := ih hrest
      refine ⟨⟨i.path.text, doc⟩ :: specs, after, ?_, congrArg (_ :: ·) hpaths, hafter⟩
      -- The group goes on, for an import starts with neither of the marks that are tested first.
      have hclosing : t.kind ≠ .mark ')' := i.head_kind_ne (m := .closing) nofun h
      have hsemicolon : t.kind ≠ .mark ';' := i.head_kind_ne (m := .semicolon) nofun h
      rw [importGroup_of_importSpec hclosing hsemicolon hspec, hsemicolons, hgroup]
      rfl

theorem map_path_withDeclDoc (doc : Option String) (specs : List ImportSpec) :
    (withDeclDoc doc specs).map ImportSpec.path = specs.map ImportSpec.path := by
  unfold withDeclDoc
  split <;> rfl

/-- The imports of a declaration are read from its tokens. -/
theorem DeclTree.exists_importDecl (decl : DeclTree) (doc : Option String)
    (h : ts.map Token.kind = decl.body.map Word.kind ++ ks) :
    ∃ specs rest, importDecl ending doc ts = .ok (specs, rest) ∧
      specs.map ImportSpec.path = decl.paths ∧ rest.map Token.kind = ks := by
  cases decl with
  | single i =>
    obtain ⟨specDoc, rest, hspec, hrest⟩ := i.exists_importSpec ending h
    -- A single import does not start like a group.
    have hhead : ∀ t ∈ ts.head?, t.kind ≠ .mark '(' := by
      cases ts with
      | nil => nofun
      | cons t us =>
        rintro _ ⟨⟩
        exact i.head_kind_ne (m := .opening) nofun h
    refine ⟨withDeclDoc doc [⟨i.path.text, specDoc⟩], rest, ?_, ?_, hrest⟩
    · rw [importDecl_of_not_group hhead, hspec]
      rfl
    · rw [map_path_withDeclDoc]
      rfl
  | group leading imports =>
    obtain ⟨⟨kind, line, tokenDoc⟩, us, rfl, hkind, hus⟩ := List.map_eq_cons_iff.mp h
    obtain rfl : kind = .mark '(' := hkind
    have hus : us.map Token.kind =
        (semicolons leading).map Word.kind ++ ((groupWords imports).map Word.kind ++ ks) := by
      rw [← List.append_assoc, ← List.map_append]
      exact hus
    obtain ⟨inner, hsemicolons, hinner⟩ := exists_importGroup_semicolons ending leading hus
    obtain ⟨specs, rest, hgroup, hpaths, hrest⟩ := exists_importGroup ending imports hinner
    refine ⟨withDeclDoc doc specs, rest, ?_, ?_, hrest⟩
    · simp only [importDecl, hsemicolons, hgroup]
      rfl
    · rw [map_path_withDeclDoc, hpaths]
      rfl

/-- Semicolons between declarations are passed over. -/
theorem exists_declares_semicolons {paths : List String} (n : Nat)
    (hrest : ∀ rest : List Token, rest.map Token.kind = ks →
      ∃ specs, Declares ending rest specs ∧ specs.map ImportSpec.path = paths)
    (h : ts.map Token.kind = (semicolons n).map Word.kind ++ ks) :
    ∃ specs, Declares ending ts specs ∧ specs.map ImportSpec.path = paths := by
  induction n generalizing ts with
  | zero => exact hrest ts h
  | succ n ih =>
    obtain ⟨t, us, rfl, hkind, hus⟩ := List.map_eq_cons_iff.mp h
    obtain ⟨specs, hspecs, hpaths⟩ := ih hus
    exact ⟨specs, .semicolon hkind hspecs, hpaths⟩

/-- Declarations are read from their tokens. -/
theorem HeaderTree.exists_declares (decls : List (DeclTree × Nat))
    (h : ts.map Token.kind = (declWords decls).map Word.kind) :
    ∃ specs, Declares ending ts specs ∧
      specs.map ImportSpec.path = decls.flatMap fun (decl, _) => decl.paths := by
  induction decls generalizing ts with
  | nil =>
    obtain rfl := List.map_eq_nil_iff.mp h
    exact ⟨[], .nil, rfl⟩
  | cons entry decls ih =>
    obtain ⟨decl, n⟩ := entry
    have hwords : declWords ((decl, n) :: decls) =
        .name .import :: (decl.body ++ (semicolons n ++ declWords decls)) := by
      simp [declWords]
    rw [hwords] at h
    obtain ⟨t, us, rfl, hkind, hus⟩ := List.map_eq_cons_iff.mp h
    rw [List.map_append] at hus
    obtain ⟨specs, later, hdecl, hpaths, hlater⟩ := decl.exists_importDecl ending t.doc hus
    rw [List.map_append] at hlater
    obtain ⟨others, hothers, hothers_paths⟩ :=
      exists_declares_semicolons ending n (fun _ hrest => ih hrest) hlater
    refine ⟨specs ++ others, .decl hkind hdecl hothers, ?_⟩
    rw [List.map_append, hpaths, hothers_paths, List.flatMap_cons]

end Tokens

/-! ## Texts -/

/-- What may stand after a header: nothing more, or an identifier that starts no import, and then
anything that does not continue it. -/
inductive Stop where
  | atEnd (gap : List Filler)
  | atName (keyword : Identifier) (h : keyword.text ≠ "import") (rest : List Char)
      (hrest : EndsName rest)

namespace Stop

/-- The word at which reading a header stops. -/
def words : Stop → List Word
  | atEnd _ => []
  | atName keyword _ _ _ => [.name keyword]

/-- What stands after that word. -/
def chars : Stop → List Char
  | atEnd gap => gap.flatMap Filler.chars
  | atName _ _ rest _ => rest

theorem endsName (stop : Stop) : EndsName stop.chars := by
  cases stop with
  | atEnd gap =>
    cases gap with
    | nil => nofun
    | cons f gap => exact f.endsName _
  | atName keyword h rest hrest => exact hrest

/-- Reading declarations stops at another identifier. -/
theorem importDecls_of_name {ending : Ending} {t : Token} {ts : List Token} {name : String}
    (hkind : t.kind = .name name) (hname : name ≠ "import") :
    importDecls ending (t :: ts) = .ok [] := by
  have hsemicolon : ¬ t.kind = .mark ';' := by
    rw [hkind]
    nofun
  have himport : ¬ t.kind = .name "import" := by
    rw [hkind]
    exact fun h => hname (TokenKind.name.inj h)
  rw [importDecls, if_neg hsemicolon, if_neg himport]

/-- What stands after a header declares no imports. -/
theorem importDecls_eq (stop : Stop) {line : Nat} {ts : List Token}
    (h : ts.map Token.kind = stop.words.map Word.kind ++ kinds (lex line stop.chars).1) :
    importDecls (lex line stop.chars).2 ts = .ok [] := by
  cases stop with
  | atEnd gap =>
    obtain ⟨ls, last, hkinds, hlex⟩ := spells_gap gap [] line
    rw [List.append_nil, lex, List.append_nil] at hlex
    have hlex : lex line (Stop.atEnd gap).chars = (ls, .complete last) := hlex
    rw [hlex] at h ⊢
    obtain rfl := List.map_eq_nil_iff.mp (h.trans hkinds)
    rw [importDecls]
  | atName keyword hname rest hrest =>
    obtain ⟨t, us, rfl, hkind, -⟩ := List.map_eq_cons_iff.mp h
    exact importDecls_of_name hkind hname

end Stop

namespace HeaderTree

/-- The tokens of a header are read as the tree, when no further imports are declared after them. -/
theorem exists_ofTokens (tree : HeaderTree) {ts : List Token}
    (h : ts.map Token.kind = tree.words.map Word.kind) :
    ∃ header : Header, header.packageName = tree.name.text ∧
      header.imports.map ImportSpec.path = tree.paths ∧
      ∀ ending more, importDecls ending more = .ok [] →
        ofTokens ending (ts ++ more) = .ok header := by
  obtain ⟨keyword, us, rfl, hkeyword, hus⟩ := List.map_eq_cons_iff.mp h
  obtain ⟨name, vs, rfl, hname, hvs⟩ := List.map_eq_cons_iff.mp hus
  rw [List.map_append] at hvs
  obtain ⟨specs, hspecs, hpaths⟩ := exists_declares_semicolons (.complete 0) tree.leading
    (fun _ hrest => exists_declares (.complete 0) tree.decls hrest) hvs
  refine ⟨⟨tree.name.text, specs⟩, rfl, hpaths, fun ending more hmore => ?_⟩
  have hpackage : keyword.kind = .name "package" := hkeyword
  rw [List.cons_append, List.cons_append, ofTokens, if_pos hpackage]
  simp only [hname, Word.kind]
  rw [importDecls_append hspecs, hmore]
  simp [Except.map]

/-- **Parsing a header inverts printing it.** However the words of a header are laid out, and
whatever follows it, parsing the text gives the name of the package and the paths in order. -/
theorem parse_layout (tree : HeaderTree) (stop : Stop)
    (layout : Layout (tree.words ++ stop.words)) :
    ∃ header, Header.parse (String.ofList (layout.chars ++ stop.chars)) = .ok header ∧
      header.packageName = tree.name.text ∧
      header.imports.map ImportSpec.path = tree.paths := by
  obtain ⟨ls, last, hkinds, hlex⟩ := layout.spells (fun _ _ _ => stop.endsName) 1
  have htokens : (Token.documented 0 none (ls ++ (lex last stop.chars).1)).map Token.kind =
      tree.words.map Word.kind ++
        (stop.words.map Word.kind ++ kinds (lex last stop.chars).1) := by
    rw [map_kind_documented, kinds_append, hkinds, List.map_append, List.append_assoc]
  obtain ⟨ts, more, heq, hts, hmore⟩ := List.map_eq_append_iff.mp htokens
  obtain ⟨header, hname, hpaths, hheader⟩ := tree.exists_ofTokens hts
  refine ⟨header, ?_, hname, hpaths⟩
  rw [Header.parse, Token.ofSource, String.toList_ofList, hlex]
  simp only [heq]
  exact hheader _ more (stop.importDecls_eq hmore)

/-- A header in which hardly a blank stands where it could be left out, and then a broken text. -/
example : ((Header.parse
      "package a/* ; */;import(_\"b\\n\";;.\x60c\x60)import\"d\"//e\nfunc!\"").map fun header =>
        (header.packageName, header.imports.map ImportSpec.path)).toOption =
    some ("a", ["b\n", "c", "d"]) := by decide +kernel

end HeaderTree

end GoBuildRules
