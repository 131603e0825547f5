import GoBuildRules.Header.Token

/-!
# File headers

The header of a source file is its package clause and the import declarations after it. Reading
stops at the first token that belongs to neither, so what follows a header may be anything.

A declaration imports one path, or several between parentheses; an alias may stand before a path.
The comments directly above a path document it, and where a declaration has one path without such
comments, those above the keyword do.
-/

namespace GoBuildRules

/-- An imported path and the comments that document it. -/
structure ImportSpec where
  path : String
  doc : Option String
  deriving DecidableEq, Repr

/-- The package name of a source file and its imports, in order. -/
structure Header where
  packageName : String
  imports : List ImportSpec
  deriving DecidableEq, Repr

/-- The error where another token was expected: about the end of the text, or the lexeme that is
malformed. -/
def Ending.error (expected : Nat → String → HeaderError) : Ending → HeaderError
  | complete line => expected line "EOF"
  | broken e => e

/-- The error where another token was expected than the one that stands there. -/
def Token.error (expected : Nat → String → HeaderError) (t : Token) : HeaderError :=
  expected t.line t.kind.describe

namespace Header

/-- Whether a token before a path is an alias: a name, or a dot. -/
def isAlias : TokenKind → Bool
  | .name _ => true
  | .mark '.' => true
  | _ => false

/-- The import of the path that stands first. -/
def pathSpec (ending : Ending) (doc : Option String) :
    List Token → Except HeaderError (ImportSpec × List Token)
  | [] => .error (ending.error .expectedImportPath)
  | t :: rest =>
    match t.kind with
    | .literal path => .ok (⟨path, doc⟩, rest)
    | _ => .error (t.error .expectedImportPath)

/-- The import that stands first, with or without an alias. -/
def importSpec (ending : Ending) : List Token → Except HeaderError (ImportSpec × List Token)
  | [] => .error (ending.error .expectedImportPath)
  | t :: rest =>
    if isAlias t.kind then pathSpec ending t.doc rest else pathSpec ending t.doc (t :: rest)

theorem length_lt_of_pathSpec {ending : Ending} {doc : Option String} {ts rest : List Token}
    {spec : ImportSpec} (h : pathSpec ending doc ts = .ok (spec, rest)) :
    rest.length < ts.length := by
  unfold pathSpec at h
  split at h
  · simp at h
  · split at h
    · simp only [Except.ok.injEq, Prod.mk.injEq] at h
      simp [h.2]
    · simp at h

theorem length_lt_of_importSpec {ending : Ending} {ts rest : List Token} {spec : ImportSpec}
    (h : importSpec ending ts = .ok (spec, rest)) : rest.length < ts.length := by
  unfold importSpec at h
  split at h
  · simp at h
  · split at h
    · exact Nat.lt_succ_of_lt (length_lt_of_pathSpec h)
    · exact length_lt_of_pathSpec h

/-- The imports up to the closing parenthesis, and what follows it. -/
def importGroup (ending : Ending) (ts : List Token) :
    Except HeaderError (List ImportSpec × List Token) :=
  match ts with
  | [] => .error (ending.error .expectedImportPath)
  | t :: rest =>
    match t.kind with
    | .mark ')' => .ok ([], rest)
    | .mark ';' => importGroup ending rest
    | _ =>
      match h : importSpec ending (t :: rest) with
      | .error e => .error e
      | .ok (spec, later) =>
        have : later.length ≤ rest.length := Nat.le_of_lt_succ (length_lt_of_importSpec h)
        (importGroup ending later).map fun (specs, after) => (spec :: specs, after)
termination_by ts.length

theorem length_lt_of_importGroup {ending : Ending} {ts rest : List Token}
    {specs : List ImportSpec} (h : importGroup ending ts = .ok (specs, rest)) :
    rest.length < ts.length := by
  fun_induction importGroup ending ts generalizing specs with
  | case1 => simp at h
  | case2 t later ht =>
    simp only [Except.ok.injEq, Prod.mk.injEq] at h
    simp [h.2]
  | case3 t later ht ih => exact Nat.lt_succ_of_lt (ih h)
  | case4 => simp at h
  | case5 t tail spec later hspec hlt _ _ ih =>
    cases hg : importGroup ending later with
    | error e => simp [hg, Except.map] at h
    | ok r =>
      obtain ⟨more, after⟩ := r
      simp only [hg, Except.map, Except.ok.injEq, Prod.mk.injEq] at h
      obtain ⟨-, rfl⟩ := h
      exact Nat.lt_succ_of_lt (Nat.lt_of_lt_of_le (ih hg) hlt)

/-- The imports of a declaration, where comments above the keyword document its only import unless
that has comments of its own. -/
def withDeclDoc (declDoc : Option String) : List ImportSpec → List ImportSpec
  | [⟨path, none⟩] => [⟨path, declDoc⟩]
  | specs => specs

/-- The imports of the declaration whose keyword was read, and what follows it. -/
def importDecl (ending : Ending) (declDoc : Option String) (ts : List Token) :
    Except HeaderError (List ImportSpec × List Token) :=
  let specs :=
    match ts with
    | ⟨.mark '(', _, _⟩ :: rest => importGroup ending rest
    | _ => (importSpec ending ts).map fun (spec, rest) => ([spec], rest)
  specs.map fun (specs, rest) => (withDeclDoc declDoc specs, rest)

theorem length_lt_of_importDecl {ending : Ending} {declDoc : Option String} {ts rest : List Token}
    {specs : List ImportSpec} (h : importDecl ending declDoc ts = .ok (specs, rest)) :
    rest.length < ts.length := by
  simp only [importDecl] at h
  split at h
  · rename_i l d tail
    cases hg : importGroup ending tail with
    | error e => simp [hg, Except.map] at h
    | ok r =>
      obtain ⟨more, after⟩ := r
      simp only [hg, Except.map, Except.ok.injEq, Prod.mk.injEq] at h
      obtain ⟨-, rfl⟩ := h
      exact Nat.lt_succ_of_lt (length_lt_of_importGroup hg)
  · cases hs : importSpec ending ts with
    | error e => simp [hs, Except.map] at h
    | ok r =>
      obtain ⟨spec, after⟩ := r
      simp only [hs, Except.map, Except.ok.injEq, Prod.mk.injEq] at h
      obtain ⟨-, rfl⟩ := h
      exact length_lt_of_importSpec hs

/-- The imports of all declarations that stand first, with semicolons between them. -/
def importDecls (ending : Ending) (ts : List Token) : Except HeaderError (List ImportSpec) :=
  match ts with
  | [] =>
    match ending with
    | .complete _ => .ok []
    | .broken e => .error e
  | t :: rest =>
    if t.kind = .mark ';' then importDecls ending rest
    else if t.kind = .name "import" then
      match h : importDecl ending t.doc rest with
      | .error e => .error e
      | .ok (specs, later) =>
        have : later.length < rest.length := length_lt_of_importDecl h
        (importDecls ending later).map (specs ++ ·)
    else .ok []
termination_by ts.length

/-- The header that a list of tokens starts with. -/
def ofTokens (ending : Ending) : List Token → Except HeaderError Header
  | [] => .error (ending.error .expectedPackage)
  | keyword :: rest =>
    if keyword.kind = .name "package" then
      match rest with
      | [] => .error (ending.error .expectedPackageName)
      | t :: rest =>
        match t.kind with
        | .name packageName => (importDecls ending rest).map fun specs => ⟨packageName, specs⟩
        | _ => .error (t.error .expectedPackageName)
    else .error (keyword.error .expectedPackage)

/-- The header of a source text. -/
def parse (source : String) : Except HeaderError Header :=
  let (tokens, ending) := Token.ofSource source
  ofTokens ending tokens

end Header

end GoBuildRules
