import GoBuildRules.Header.Basic

/-!
# Import declarations and what follows them

Reading an import declaration does not depend on the tokens after it, so the declarations of a
header are read the same when further ones follow (`importDecls_append`). That tokens are import
declarations up to their end is `Declares`.
-/

namespace GoBuildRules.Header

variable {ending ending' : Ending} {doc declDoc : Option String} {ts rest more : List Token}
  {spec : ImportSpec} {specs : List ImportSpec} {t : Token}

theorem pathSpec_append (h : pathSpec ending doc ts = .ok (spec, rest)) :
    pathSpec ending' doc (ts ++ more) = .ok (spec, rest ++ more) := by
  unfold pathSpec at h
  split at h
  · cases h
  · rename_i t rest'
    split at h
    · rename_i path hpath
      obtain ⟨rfl, rfl⟩ := Prod.mk.inj (Except.ok.inj h)
      simp only [pathSpec, List.cons_append, hpath]
    · cases h

theorem importSpec_append (h : importSpec ending ts = .ok (spec, rest)) :
    importSpec ending' (ts ++ more) = .ok (spec, rest ++ more) := by
  unfold importSpec at h
  split at h
  · cases h
  · rename_i t rest'
    rw [List.cons_append, importSpec]
    split at h
    · rename_i halias
      rw [if_pos halias]
      exact pathSpec_append h
    · rename_i halias
      rw [if_neg halias, ← List.cons_append]
      exact pathSpec_append h

/-- A group goes on after a path. -/
theorem importGroup_of_importSpec {later : List Token} (hclose : t.kind ≠ .mark ')')
    (hsemicolon : t.kind ≠ .mark ';') (hspec : importSpec ending (t :: rest) = .ok (spec, later)) :
    importGroup ending (t :: rest) =
      (importGroup ending later).map fun (specs, after) => (spec :: specs, after) := by
  rw [importGroup]
  split
  · exact absurd ‹_› hclose
  · exact absurd ‹_› hsemicolon
  · split
    · rename_i herror
      rw [hspec] at herror
      cases herror
    · rename_i hok
      rw [hspec] at hok
      obtain ⟨rfl, rfl⟩ := Prod.mk.inj (Except.ok.inj hok)
      rfl

theorem importGroup_append (h : importGroup ending ts = .ok (specs, rest)) :
    importGroup ending' (ts ++ more) = .ok (specs, rest ++ more) := by
  fun_induction importGroup ending ts generalizing specs with
  | case1 => cases h
  | case2 t later ht =>
    obtain ⟨rfl, rfl⟩ := Prod.mk.inj (Except.ok.inj h)
    simp [importGroup, ht]
  | case3 t later ht ih =>
    rw [List.cons_append, importGroup]
    simp only [ht]
    exact ih h
  | case4 => cases h
  | case5 t tail spec later hspec hlt hclose hsemicolon ih =>
    cases hgroup : importGroup ending later with
    | error e =>
      rw [hgroup] at h
      cases h
    | ok result =>
      obtain ⟨others, after⟩ := result
      rw [hgroup] at h
      obtain ⟨rfl, rfl⟩ := Prod.mk.inj (Except.ok.inj h)
      have hlonger : importSpec ending' (t :: (tail ++ more)) = .ok (spec, later ++ more) :=
        importSpec_append hspec
      rw [List.cons_append, importGroup_of_importSpec hclose hsemicolon hlonger, ih hgroup]
      rfl

/-- A declaration of one import starts with no parenthesis. -/
theorem importDecl_of_not_group (h : ∀ t ∈ ts.head?, t.kind ≠ .mark '(') :
    importDecl ending declDoc ts =
      (importSpec ending ts).map fun (spec, rest) => (withDeclDoc declDoc [spec], rest) := by
  rw [importDecl]
  · cases importSpec ending ts <;> rfl
  · rintro line doc tail rfl
    exact h _ rfl rfl

theorem importDecl_append (h : importDecl ending declDoc ts = .ok (specs, rest)) :
    importDecl ending' declDoc (ts ++ more) = .ok (specs, rest ++ more) := by
  simp only [importDecl] at h
  split at h
  · rename_i line doc tail
    cases hgroup : importGroup ending tail with
    | error e =>
      rw [hgroup] at h
      cases h
    | ok result =>
      obtain ⟨others, after⟩ := result
      rw [hgroup] at h
      obtain ⟨rfl, rfl⟩ := Prod.mk.inj (Except.ok.inj h)
      simp only [importDecl, List.cons_append, importGroup_append hgroup]
      rfl
  · rename_i hparen
    cases hspec : importSpec ending ts with
    | error e =>
      rw [hspec] at h
      cases h
    | ok result =>
      obtain ⟨spec, after⟩ := result
      rw [hspec] at h
      obtain ⟨rfl, rfl⟩ := Prod.mk.inj (Except.ok.inj h)
      -- More tokens at the end do not put a parenthesis at the start.
      have hhead : ∀ t ∈ (ts ++ more).head?, t.kind ≠ .mark '(' := by
        cases ts with
        | nil => cases hspec
        | cons t tail =>
          rintro _ ⟨⟩ hkind
          obtain ⟨kind, line, doc⟩ := t
          subst hkind
          exact hparen line doc tail rfl
      rw [importDecl_of_not_group hhead, importSpec_append hspec]
      rfl

/-- The tokens are import declarations up to their end, with semicolons between them. -/
inductive Declares (ending : Ending) : List Token → List ImportSpec → Prop
  | nil : Declares ending [] []
  | semicolon {t : Token} {rest : List Token} {specs : List ImportSpec} (ht : t.kind = .mark ';')
      (h : Declares ending rest specs) : Declares ending (t :: rest) specs
  | decl {t : Token} {rest later : List Token} {specs others : List ImportSpec}
      (ht : t.kind = .name "import") (hdecl : importDecl ending t.doc rest = .ok (specs, later))
      (h : Declares ending later others) : Declares ending (t :: rest) (specs ++ others)

theorem importDecls_of_importDecl {later : List Token} (ht : t.kind = .name "import")
    (hdecl : importDecl ending t.doc rest = .ok (specs, later)) :
    importDecls ending (t :: rest) = (importDecls ending later).map (specs ++ ·) := by
  have hsemicolon : ¬ t.kind = .mark ';' := by
    rw [ht]
    nofun
  rw [importDecls, if_neg hsemicolon, if_pos ht]
  split
  · rename_i herror
    rw [hdecl] at herror
    cases herror
  · rename_i hok
    rw [hdecl] at hok
    obtain ⟨rfl, rfl⟩ := Prod.mk.inj (Except.ok.inj hok)
    rfl

theorem importDecls_of_error {e : HeaderError} (ht : t.kind = .name "import")
    (hdecl : importDecl ending t.doc rest = .error e) :
    importDecls ending (t :: rest) = .error e := by
  have hsemicolon : ¬ t.kind = .mark ';' := by
    rw [ht]
    nofun
  rw [importDecls, if_neg hsemicolon, if_pos ht]
  split
  · rename_i herror
    obtain rfl := Except.error.inj (hdecl.symm.trans herror)
    rfl
  · rename_i hok
    cases hdecl.symm.trans hok

/-- Declarations are read the same when further ones follow. -/
theorem importDecls_append (h : Declares ending ts specs) :
    importDecls ending' (ts ++ more) = (importDecls ending' more).map (specs ++ ·) := by
  induction h with
  | nil =>
    rw [List.nil_append]
    cases importDecls ending' more <;> rfl
  | semicolon ht _ ih => rw [List.cons_append, importDecls, if_pos ht, ih]
  | decl ht hdecl _ ih =>
    rw [List.cons_append, importDecls_of_importDecl ht (importDecl_append hdecl), ih]
    cases importDecls ending' more with
    | error e => rfl
    | ok others => exact congrArg Except.ok (List.append_assoc _ _ _).symm

/-- A declaration of one path without an alias and without comments of its own has the comments
above the keyword. -/
theorem importDecls_of_literal {path : String} {line pathLine : Nat} :
    importDecls ending (⟨.name "import", line, doc⟩ :: ⟨.literal path, pathLine, none⟩ :: rest) =
      (importDecls ending rest).map (⟨path, doc⟩ :: ·) := by
  have hhead : ∀ t ∈ ((⟨.literal path, pathLine, none⟩ : Token) :: rest).head?,
      t.kind ≠ .mark '(' := by
    rintro _ ⟨⟩
    nofun
  let keyword : Token := ⟨.name "import", line, doc⟩
  have hdecl : importDecl ending keyword.doc (⟨.literal path, pathLine, none⟩ :: rest) =
      .ok ([⟨path, doc⟩], rest) := by
    rw [importDecl_of_not_group hhead]
    rfl
  exact importDecls_of_importDecl rfl hdecl

end GoBuildRules.Header
