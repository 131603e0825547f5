import Mathlib.Data.List.Chain
import Mathlib.Data.List.Forall2
import GoBuildRules.Header.Basic
import GoBuildRules.Proofs.Header.Positions

/-!
# Which comments document an import

The documentation of a token is a run of comments before it (`Entry.IsDoc`): of the comments since
the token before, the last ones that have no empty line between them, when they start below the
line of that token and end on the line above their own. An import is documented by the run before
its first token, and where a declaration has one import without such a run, by the run before its
keyword (`Header.exists_origins`).

The tokens of a header are taken apart as imports (`ImportTokens`), declarations (`DeclTokens`) and
headers (`HeaderTokens`), one lemma for each reader.
-/

namespace GoBuildRules

/-! ## Runs of comments -/

/-- No empty line is between two comments. -/
def Located.Adjoins (a b : Located) : Prop :=
  b.first ≤ a.last + 1

/-- The comments end with the run, which has no empty line in it but one above it. -/
structure IsLastRun (comments run : List Located) : Prop where
  ne_nil : run ≠ []
  connected : run.IsChain Located.Adjoins
  suffix : ∃ above, comments = above ++ run ∧
    ∀ a ∈ above.getLast?, ∀ b ∈ run.head?, ¬ a.Adjoins b

/-- The lines of the comments, joined. -/
def docText (run : List Located) : String :=
  "\n".intercalate (run.flatMap fun c => commentLines c.chars)

namespace CommentGroup

variable {previous : Nat} {comments run : List Located}

/-- A run as a group. -/
def ofRun (previous : Nat) (run : List Located) : CommentGroup where
  lines := run.flatMap fun c => commentLines c.chars
  last := run.getLast?.elim 0 Located.last
  startsLine := run.head?.any fun c => previous < c.first

theorem single_eq_ofRun (previous : Nat) (p : Located) :
    single previous p.comment = ofRun previous [p] := by
  rw [single, ofRun, List.flatMap_singleton]
  rfl

theorem ofRun_concat_head (init : List Located) (a p : Located) :
    (init ++ [a] ++ [p]).head? = (init ++ [a]).head? := by
  cases init <;> rfl

/-- A comment that adjoins the last one of a run goes on with it. -/
theorem extend_of_adjoins {init : List Located} {a p : Located} (h : a.Adjoins p) :
    extend previous p.comment (some (ofRun previous (init ++ [a]))) =
      ofRun previous (init ++ [a] ++ [p]) := by
  have hle : p.comment.first ≤ (ofRun previous (init ++ [a])).last + 1 := by
    simpa [ofRun, Located.comment, Located.Adjoins] using h
  rw [extend, if_pos hle, ofRun, ofRun, ofRun_concat_head]
  simp [Located.comment]

theorem extend_of_not_adjoins {init : List Located} {a p : Located} (h : ¬ a.Adjoins p) :
    extend previous p.comment (some (ofRun previous (init ++ [a]))) = ofRun previous [p] := by
  have hlt : ¬ p.comment.first ≤ (ofRun previous (init ++ [a])).last + 1 := by
    simpa [ofRun, Located.comment, Located.Adjoins] using h
  rw [extend, if_neg hlt, single_eq_ofRun]

/-- The comments are collected as the last run among them. -/
theorem exists_collect (previous : Nat) (hne : comments ≠ []) :
    ∃ run, IsLastRun comments run ∧ collect previous comments = some (ofRun previous run) := by
  -- The comments are added one by one at the end; each goes on with the run or starts another.
  induction comments using List.reverseRecOn with
  | nil => exact absurd rfl hne
  | append_singleton comments p ih =>
    rw [collect_append]
    by_cases hcomments : comments = []
    · subst hcomments
      exact ⟨[p], ⟨List.cons_ne_nil _ _, .singleton p, [], rfl, nofun⟩,
        congrArg some (single_eq_ofRun previous p)⟩
    · obtain ⟨run, hrun, hcollect⟩ := ih hcomments
      obtain ⟨init, a, rfl⟩ := (List.eq_nil_or_concat' run).resolve_left hrun.ne_nil
      rw [hcollect]
      by_cases hadjoins : a.Adjoins p
      · obtain ⟨above, rfl, hgap⟩ := hrun.suffix
        refine ⟨init ++ [a] ++ [p], ⟨by simp, ?_, above, by simp, ?_⟩,
          congrArg some (extend_of_adjoins hadjoins)⟩
        · refine hrun.connected.append (.singleton p) ?_
          rw [List.getLast?_concat]
          rintro _ ⟨⟩ _ ⟨⟩
          exact hadjoins
        · rwa [ofRun_concat_head]
      · refine ⟨[p], ⟨List.cons_ne_nil _ _, .singleton p, comments, rfl, ?_⟩,
          congrArg some (extend_of_not_adjoins hadjoins)⟩
        obtain ⟨above, rfl, -⟩ := hrun.suffix
        rw [← List.append_assoc, List.getLast?_concat]
        rintro _ ⟨⟩ _ ⟨⟩
        exact hadjoins

end CommentGroup

/-- A run that goes on above another one has an adjoining comment there. -/
theorem eq_nil_of_isChain {above upper run : List Located} (hne : run ≠ [])
    (hconnected : (upper ++ run).IsChain Located.Adjoins)
    (hgap : ∀ a ∈ (above ++ upper).getLast?, ∀ b ∈ run.head?, ¬ a.Adjoins b) : upper = [] := by
  by_contra hupper
  obtain ⟨init, a, rfl⟩ := (List.eq_nil_or_concat' upper).resolve_left hupper
  obtain ⟨b, later, rfl⟩ := List.exists_cons_of_ne_nil hne
  have hlast : (above ++ (init ++ [a])).getLast? = some a := by
    rw [← List.append_assoc, List.getLast?_concat]
  rw [hlast] at hgap
  refine hgap a rfl b rfl ?_
  exact (List.isChain_append.mp hconnected).2.2 a List.getLast?_concat b rfl

/-- There is one last run. -/
theorem IsLastRun.unique {comments run other : List Located} (h : IsLastRun comments run)
    (hother : IsLastRun comments other) : run = other := by
  obtain ⟨above, rfl, hgap⟩ := h.suffix
  obtain ⟨above', heq, hgap'⟩ := hother.suffix
  rcases List.append_eq_append_iff.mp heq with ⟨upper, rfl, rfl⟩ | ⟨upper, rfl, rfl⟩
  · rw [eq_nil_of_isChain hother.ne_nil h.connected hgap', List.nil_append]
  · rw [eq_nil_of_isChain h.ne_nil hother.connected hgap, List.nil_append]

/-! ## The documentation of a token -/

namespace Entry

variable {e : Entry} {run : List Located}

/-- The run documents the token: it is the last one before it, starts below the line on which the
token before starts, and ends on the line above the token. -/
structure IsDoc (e : Entry) (run : List Located) : Prop where
  isLastRun : IsLastRun e.comments run
  below : ∀ p ∈ e.previous, ∀ c ∈ run.head?, p.first < c.first
  above : ∀ c ∈ run.getLast?, c.last + 1 = e.token.first

theorem lineOf_lt_iff {token : Option Located} {c : Located} :
    lineOf token < c.first ↔ ∀ p ∈ token, p.first < c.first := by
  cases token with
  | none => exact ⟨nofun, fun _ => Nat.succ_pos _⟩
  | some p => simp [lineOf]

/-- What a run gives to the token. -/
theorem doc?_ofRun_eq_some_iff (hrun : IsLastRun e.comments run) {d : String} :
    (CommentGroup.ofRun (lineOf e.previous) run).doc? e.token.first = some d ↔
      e.IsDoc run ∧ docText run = d := by
  obtain ⟨first, hfirst⟩ := Option.ne_none_iff_exists'.mp (mt List.head?_eq_none_iff.mp hrun.ne_nil)
  obtain ⟨last, hlast⟩ :=
    Option.ne_none_iff_exists'.mp (mt List.getLast?_eq_none_iff.mp hrun.ne_nil)
  -- The group keeps of its run only the first and the last line, and these decide.
  have hdoc : e.IsDoc run ↔
      lineOf e.previous < first.first ∧ last.last + 1 = e.token.first := by
    rw [lineOf_lt_iff]
    constructor
    · intro h
      exact ⟨fun p hp => h.below p hp first hfirst, h.above last hlast⟩
    · rintro ⟨hbelow, habove⟩
      refine ⟨hrun, fun p hp c hc => ?_, fun c hc => ?_⟩
      · rw [hfirst] at hc
        exact Option.some.inj hc ▸ hbelow p hp
      · rw [hlast] at hc
        exact Option.some.inj hc ▸ habove
  rw [hdoc, CommentGroup.doc?, Option.ite_none_right_eq_some, Option.some.injEq]
  simp [CommentGroup.ofRun, hfirst, hlast, docText]

/-- A token is documented by the run of comments before it that has the right place. -/
theorem doc_eq_some_iff {d : String} :
    e.toToken.doc = some d ↔ ∃ run, e.IsDoc run ∧ docText run = d := by
  rw [toToken]
  by_cases hcomments : e.comments = []
  · rw [hcomments]
    constructor
    · nofun
    · rintro ⟨run, hdoc, -⟩
      obtain ⟨above, heq, -⟩ := hdoc.isLastRun.suffix
      rw [hcomments] at heq
      exact absurd (List.append_eq_nil_iff.mp heq.symm).2 hdoc.isLastRun.ne_nil
  · obtain ⟨run, hrun, hcollect⟩ :=
      CommentGroup.exists_collect (lineOf e.previous) hcomments
    -- Of all comments before a token only the last run is left when it is reached.
    rw [hcollect, Option.bind_some, doc?_ofRun_eq_some_iff hrun]
    constructor
    · intro h
      exact ⟨run, h⟩
    · rintro ⟨other, hother, htext⟩
      obtain rfl := hrun.unique hother.isLastRun
      exact ⟨hother, htext⟩

theorem doc_eq_none_iff : e.toToken.doc = none ↔ ∀ run, ¬ e.IsDoc run := by
  rw [Option.eq_none_iff_forall_ne_some]
  constructor
  · exact fun h run hrun => h _ (doc_eq_some_iff.mpr ⟨run, hrun, rfl⟩)
  · intro h d hd
    obtain ⟨run, hrun, -⟩ := doc_eq_some_iff.mp hd
    exact h run hrun

end Entry

/-! ## The tokens of a header -/

/-- The tokens of an import: an alias, if there is one, and a path. -/
structure ImportTokens where
  alias? : Option Entry
  path : Entry
  text : String
  alias_kind : ∀ e ∈ alias?, Header.isAlias e.kind = true
  path_kind : path.kind = .literal text

namespace ImportTokens

/-- The alias, or the path where there is none. -/
def first (i : ImportTokens) : Entry :=
  i.alias?.getD i.path

/-- All tokens. -/
def entries (i : ImportTokens) : List Entry :=
  i.alias?.toList ++ [i.path]

/-- The import with the documentation of its first token. -/
def spec (i : ImportTokens) : ImportSpec where
  path := i.text
  doc := i.first.toToken.doc

end ImportTokens

/-- The tokens are those of the imports, with semicolons between them. -/
inductive ListsImports : List Entry → List ImportTokens → Prop
  | nil : ListsImports [] []
  | semicolon {e : Entry} {es : List Entry} {imports : List ImportTokens}
      (he : e.kind = .mark ';') (h : ListsImports es imports) : ListsImports (e :: es) imports
  | cons (i : ImportTokens) {es : List Entry} {imports : List ImportTokens}
      (h : ListsImports es imports) : ListsImports (i.entries ++ es) (i :: imports)

/-- What stands after the keyword of a declaration: an import, or imports between parentheses. -/
inductive IsDeclBody : List Entry → List ImportTokens → Prop
  | single (i : ImportTokens) : IsDeclBody i.entries [i]
  | group {opening closing : Entry} {es : List Entry} {imports : List ImportTokens}
      (hopening : opening.kind = .mark '(') (hclosing : closing.kind = .mark ')')
      (h : ListsImports es imports) : IsDeclBody (opening :: es ++ [closing]) imports

/-- The tokens of a declaration. -/
structure DeclTokens where
  keyword : Entry
  body : List Entry
  imports : List ImportTokens
  keyword_kind : keyword.kind = .name "import"
  isDeclBody : IsDeclBody body imports

/-- The tokens are those of the declarations, with semicolons between them. -/
inductive ListsDecls : List Entry → List DeclTokens → Prop
  | nil : ListsDecls [] []
  | semicolon {e : Entry} {es : List Entry} {decls : List DeclTokens}
      (he : e.kind = .mark ';') (h : ListsDecls es decls) : ListsDecls (e :: es) decls
  | cons (d : DeclTokens) {es : List Entry} {decls : List DeclTokens} (h : ListsDecls es decls) :
    ListsDecls (d.keyword :: d.body ++ es) (d :: decls)

/-- The tokens of a header. -/
structure HeaderTokens where
  keyword : Entry
  name : Entry
  body : List Entry
  packageName : String
  decls : List DeclTokens
  keyword_kind : keyword.kind = .name "package"
  name_kind : name.kind = .name packageName
  listsDecls : ListsDecls body decls

namespace HeaderTokens

/-- All tokens. -/
def entries (tokens : HeaderTokens) : List Entry :=
  tokens.keyword :: tokens.name :: tokens.body

/-- The imports in order, each with its declaration. -/
def imports (tokens : HeaderTokens) : List (DeclTokens × ImportTokens) :=
  tokens.decls.flatMap fun d => d.imports.map fun i => (d, i)

end HeaderTokens

namespace Header

variable {ending : Ending} {doc : Option String} {es : List Entry} {ts : List Token}
  {spec : ImportSpec} {specs : List ImportSpec}

theorem exists_path (h : pathSpec ending doc (es.map Entry.toToken) = .ok (spec, ts)) :
    ∃ e rest, es = e :: rest ∧ e.kind = .literal spec.path ∧ spec.doc = doc ∧
      ts = rest.map Entry.toToken := by
  cases es with
  | nil => cases h
  | cons e rest =>
    rw [List.map_cons, pathSpec] at h
    split at h
    · rename_i path hpath
      obtain ⟨rfl, rfl⟩ := Prod.mk.inj (Except.ok.inj h)
      exact ⟨e, rest, rfl, hpath, rfl, rfl⟩
    · cases h

theorem exists_importTokens (h : importSpec ending (es.map Entry.toToken) = .ok (spec, ts)) :
    ∃ (i : ImportTokens) (rest : List Entry), es = i.entries ++ rest ∧ spec = i.spec ∧
      ts = rest.map Entry.toToken := by
  cases es with
  | nil => cases h
  | cons e rest =>
    rw [List.map_cons, importSpec] at h
    -- The token before the path is an alias, or there is none and the path comes first.
    split at h
    · rename_i halias
      obtain ⟨path, rest, rfl, hpath, hdoc, rfl⟩ := exists_path h
      let i : ImportTokens :=
        ⟨some e, path, spec.path, fun _ he => Option.some.inj he ▸ halias, hpath⟩
      exact ⟨i, rest, rfl, congrArg (ImportSpec.mk spec.path) hdoc, rfl⟩
    · rw [← List.map_cons] at h
      obtain ⟨path, rest, heq, hpath, hdoc, rfl⟩ := exists_path h
      obtain ⟨rfl, rfl⟩ := List.cons.inj heq
      let i : ImportTokens :=
        ⟨none, e, spec.path, fun a ha => absurd ha (Option.not_mem_none a), hpath⟩
      exact ⟨i, rest, rfl, congrArg (ImportSpec.mk spec.path) hdoc, rfl⟩

theorem exists_listsImports (h : importGroup ending (es.map Entry.toToken) = .ok (specs, ts)) :
    ∃ inner closing rest imports, es = inner ++ closing :: rest ∧ closing.kind = .mark ')' ∧
      ListsImports inner imports ∧ specs = imports.map ImportTokens.spec ∧
      ts = rest.map Entry.toToken := by
  obtain ⟨tokens, htokens⟩ : ∃ tokens, es.map Entry.toToken = tokens := ⟨_, rfl⟩
  rw [htokens] at h
  fun_induction importGroup ending tokens generalizing es specs with
  | case1 => cases h
  | case2 t later ht =>
    obtain ⟨closing, rest, rfl, rfl, rfl⟩ := List.map_eq_cons_iff.mp htokens
    obtain ⟨rfl, rfl⟩ := Prod.mk.inj (Except.ok.inj h)
    exact ⟨[], closing, rest, [], rfl, ht, .nil, rfl, rfl⟩
  | case3 t later ht ih =>
    obtain ⟨e, rest, rfl, rfl, rfl⟩ := List.map_eq_cons_iff.mp htokens
    obtain ⟨inner, closing, rest, imports, rfl, hclosing, hlists, rfl, rfl⟩ := ih h rfl
    exact ⟨e :: inner, closing, rest, imports, rfl, hclosing, .semicolon ht hlists, rfl, rfl⟩
  | case4 => cases h
  | case5 t tail spec later hspec hlt hclose hsemicolon ih =>
    rw [← htokens] at hspec
    obtain ⟨i, rest, rfl, rfl, rfl⟩ := exists_importTokens hspec
    cases hgroup : importGroup ending (rest.map Entry.toToken) with
    | error e =>
      rw [hgroup] at h
      cases h
    | ok result =>
      obtain ⟨others, after⟩ := result
      rw [hgroup] at h
      obtain ⟨rfl, rfl⟩ := Prod.mk.inj (Except.ok.inj h)
      obtain ⟨inner, closing, rest, imports, rfl, hclosing, hlists, rfl, rfl⟩ := ih hgroup rfl
      exact ⟨i.entries ++ inner, closing, rest, i :: imports, (List.append_assoc _ _ _).symm,
        hclosing, .cons i hlists, rfl, rfl⟩

theorem exists_declTokens {keyword : Entry} (hkeyword : keyword.kind = .name "import")
    (h : importDecl ending keyword.toToken.doc (es.map Entry.toToken) = .ok (specs, ts)) :
    ∃ (d : DeclTokens) (rest : List Entry), keyword :: es = d.keyword :: d.body ++ rest ∧
      specs = withDeclDoc d.keyword.toToken.doc (d.imports.map ImportTokens.spec) ∧
      ts = rest.map Entry.toToken := by
  obtain ⟨tokens, htokens⟩ : ∃ tokens, es.map Entry.toToken = tokens := ⟨_, rfl⟩
  rw [htokens] at h
  simp only [importDecl] at h
  -- A group up to its closing parenthesis, or a single import.
  split at h
  · rename_i line doc tail
    obtain ⟨opening, later, rfl, hopening, rfl⟩ := List.map_eq_cons_iff.mp htokens
    cases hgroup : importGroup ending (later.map Entry.toToken) with
    | error e =>
      rw [hgroup] at h
      cases h
    | ok result =>
      obtain ⟨others, after⟩ := result
      rw [hgroup] at h
      obtain ⟨rfl, rfl⟩ := Prod.mk.inj (Except.ok.inj h)
      obtain ⟨inner, closing, rest, imports, rfl, hclosing, hlists, rfl, rfl⟩ :=
        exists_listsImports hgroup
      have hbody : IsDeclBody (opening :: inner ++ [closing]) imports :=
        .group (congrArg Token.kind hopening) hclosing hlists
      exact ⟨⟨keyword, _, imports, hkeyword, hbody⟩, rest, by simp, rfl, rfl⟩
  · rw [← htokens] at h
    cases hspec : importSpec ending (es.map Entry.toToken) with
    | error e =>
      rw [hspec] at h
      cases h
    | ok result =>
      obtain ⟨spec, after⟩ := result
      rw [hspec] at h
      obtain ⟨rfl, rfl⟩ := Prod.mk.inj (Except.ok.inj h)
      obtain ⟨i, rest, rfl, rfl, rfl⟩ := exists_importTokens hspec
      exact ⟨⟨keyword, _, [i], hkeyword, .single i⟩, rest, rfl, rfl, rfl⟩

theorem exists_listsDecls (h : importDecls ending (es.map Entry.toToken) = .ok specs) :
    ∃ body rest decls, es = body ++ rest ∧ ListsDecls body decls ∧
      specs = decls.flatMap fun d =>
        withDeclDoc d.keyword.toToken.doc (d.imports.map ImportTokens.spec) := by
  obtain ⟨tokens, htokens⟩ : ∃ tokens, es.map Entry.toToken = tokens := ⟨_, rfl⟩
  rw [htokens] at h
  fun_induction importDecls ending tokens generalizing es specs with
  | case1 line =>
    obtain rfl := Except.ok.inj h
    exact ⟨[], es, [], rfl, .nil, rfl⟩
  | case2 => cases h
  | case3 t rest ht ih =>
    obtain ⟨e, later, rfl, rfl, rfl⟩ := List.map_eq_cons_iff.mp htokens
    obtain ⟨body, rest, decls, rfl, hlists, rfl⟩ := ih h rfl
    exact ⟨e :: body, rest, decls, rfl, .semicolon ht hlists, rfl⟩
  | case4 => cases h
  | case5 t rest hsemicolon ht specs later hdecl hlt ih =>
    obtain ⟨keyword, later, rfl, rfl, rfl⟩ := List.map_eq_cons_iff.mp htokens
    obtain ⟨d, after, heq, rfl, rfl⟩ := exists_declTokens ht hdecl
    cases hmore : importDecls ending (after.map Entry.toToken) with
    | error e =>
      rw [hmore] at h
      cases h
    | ok others =>
      rw [hmore] at h
      obtain rfl := Except.ok.inj h
      obtain ⟨body, rest, decls, rfl, hlists, rfl⟩ := ih hmore rfl
      exact ⟨_, rest, d :: decls, heq.trans (List.append_assoc _ _ _).symm, .cons d hlists, rfl⟩
  | case6 =>
    obtain rfl := Except.ok.inj h
    exact ⟨[], es, [], rfl, .nil, rfl⟩

/-- The header that tokens are read as has the imports of its declarations. -/
theorem exists_headerTokens {header : Header}
    (h : ofTokens ending (es.map Entry.toToken) = .ok header) :
    ∃ (tokens : HeaderTokens) (rest : List Entry), es = tokens.entries ++ rest ∧
      header.packageName = tokens.packageName ∧
      header.imports = tokens.decls.flatMap fun d =>
        withDeclDoc d.keyword.toToken.doc (d.imports.map ImportTokens.spec) := by
  match es with
  | [] => cases h
  | [e] =>
    rw [List.map_singleton, ofTokens] at h
    split at h <;> cases h
  | keyword :: name :: later =>
    rw [List.map_cons, List.map_cons, ofTokens] at h
    split at h
    · rename_i hkeyword
      split at h
      · rename_i packageName hname
        cases hdecls : importDecls ending (later.map Entry.toToken) with
        | error e =>
          rw [hdecls] at h
          cases h
        | ok specs =>
          rw [hdecls] at h
          obtain rfl := Except.ok.inj h
          obtain ⟨body, rest, decls, rfl, hlists, rfl⟩ := exists_listsDecls hdecls
          exact ⟨⟨keyword, name, body, packageName, decls, hkeyword, hname, hlists⟩, rest, rfl, rfl,
            rfl⟩
      · cases h
    · cases h

/-! ## Where the documentation of an import comes from -/

/-- The run documents the import of the declaration: its first token, or the keyword, where the
declaration has one import without such a run. -/
def Documents (run : List Located) (d : DeclTokens) (i : ImportTokens) : Prop :=
  i.first.IsDoc run ∨
    (∀ other, ¬ i.first.IsDoc other) ∧ d.imports.length = 1 ∧ d.keyword.IsDoc run

/-- The import comes from these tokens of the declaration, and its documentation from the run of
comments that documents them. -/
structure IsOrigin (spec : ImportSpec) (d : DeclTokens) (i : ImportTokens) : Prop where
  path_eq : spec.path = i.text
  doc_eq_some_iff (text : String) :
    spec.doc = some text ↔ ∃ run, Documents run d i ∧ docText run = text

variable {d : DeclTokens} {i : ImportTokens}

/-- An import that is documented before its first token, or not the only one of its declaration,
has nothing from the keyword. -/
theorem isOrigin_spec (h : d.imports.length = 1 → i.first.toToken.doc ≠ none) :
    IsOrigin i.spec d i where
  path_eq := rfl
  doc_eq_some_iff text := by
    show i.first.toToken.doc = some text ↔ _
    rw [Entry.doc_eq_some_iff]
    constructor
    · rintro ⟨run, hrun, htext⟩
      exact ⟨run, .inl hrun, htext⟩
    · rintro ⟨run, hrun | ⟨hnone, honly, -⟩, htext⟩
      · exact ⟨run, hrun, htext⟩
      · exact absurd (Entry.doc_eq_none_iff.mpr hnone) (h honly)

theorem isOrigin_keyword (honly : d.imports.length = 1) (hnone : i.first.toToken.doc = none) :
    IsOrigin ⟨i.text, d.keyword.toToken.doc⟩ d i where
  path_eq := rfl
  doc_eq_some_iff text := by
    have hother := Entry.doc_eq_none_iff.mp hnone
    show d.keyword.toToken.doc = some text ↔ _
    rw [Entry.doc_eq_some_iff]
    constructor
    · rintro ⟨run, hrun, htext⟩
      exact ⟨run, .inr ⟨hother, honly, hrun⟩, htext⟩
    · rintro ⟨run, hrun | ⟨-, -, hrun⟩, htext⟩
      · exact absurd hrun (hother run)
      · exact ⟨run, hrun, htext⟩

theorem forall₂_withDeclDoc (d : DeclTokens) :
    List.Forall₂ (fun spec i => IsOrigin spec d i)
      (withDeclDoc d.keyword.toToken.doc (d.imports.map ImportTokens.spec)) d.imports := by
  -- Only a single import without comments of its own takes those above the keyword.
  by_cases honly : ∃ i, d.imports = [i] ∧ i.first.toToken.doc = none
  · obtain ⟨i, hi, hnone⟩ := honly
    have hlength : d.imports.length = 1 := by
      rw [hi]
      rfl
    rw [hi, List.map_singleton, ImportTokens.spec, hnone]
    exact .cons (isOrigin_keyword hlength hnone) .nil
  · have hspecs : withDeclDoc d.keyword.toToken.doc (d.imports.map ImportTokens.spec) =
        d.imports.map ImportTokens.spec := by
      unfold withDeclDoc
      split
      · rename_i path heq
        obtain ⟨i, hi, hspec⟩ := List.map_eq_singleton_iff.mp heq
        exact absurd ⟨i, hi, congrArg ImportSpec.doc hspec⟩ honly
      · rfl
    rw [hspecs, List.forall₂_map_left_iff, List.forall₂_same]
    intro i hi
    refine isOrigin_spec fun hlength hnone => honly ⟨i, ?_, hnone⟩
    obtain ⟨other, hother⟩ := List.length_eq_one_iff.mp hlength
    rw [hother, List.mem_singleton] at hi
    rw [hi, hother]

theorem forall₂_imports (tokens : HeaderTokens) :
    List.Forall₂ (fun spec origin => IsOrigin spec origin.1 origin.2)
      (tokens.decls.flatMap fun d =>
        withDeclDoc d.keyword.toToken.doc (d.imports.map ImportTokens.spec)) tokens.imports := by
  rw [HeaderTokens.imports]
  induction tokens.decls with
  | nil => exact .nil
  | cons d decls ih =>
    rw [List.flatMap_cons, List.flatMap_cons]
    refine List.rel_append ?_ ih
    exact List.forall₂_map_right_iff.mpr (forall₂_withDeclDoc d)

/-- A path with its documentation is among the imports when an import of the path is documented
so. -/
theorem exists_spec_iff {specs : List ImportSpec} {origins : List (DeclTokens × ImportTokens)}
    (h : List.Forall₂ (fun spec origin => IsOrigin spec origin.1 origin.2) specs origins)
    {path text : String} :
    (∃ spec ∈ specs, spec.path = path ∧ spec.doc = some text) ↔
      ∃ origin ∈ origins, origin.2.text = path ∧
        ∃ run, Documents run origin.1 origin.2 ∧ docText run = text := by
  induction h with
  | nil => simp
  | cons horigin hrest ih =>
    simp only [List.exists_mem_cons_iff, ih, horigin.path_eq, horigin.doc_eq_some_iff]

/-- The tokens of a source text with a header are those of the header and others. The imports of
the header come from those among its tokens one by one. -/
theorem exists_origins {source : String} {header : Header} (h : parse source = .ok header) :
    ∃ (tokens : HeaderTokens) (rest : List Entry),
      Reads .start source.toList (tokens.entries ++ rest) ∧
        header.packageName = tokens.packageName ∧
        List.Forall₂ (fun spec origin => IsOrigin spec origin.1 origin.2) header.imports
          tokens.imports := by
  obtain ⟨entries, hreads, hdocumented⟩ := exists_reads .start source.toList
  have hsource : Token.ofSource source =
      (entries.map Entry.toToken, (Lexeme.lex 1 source.toList).2) :=
    Prod.ext hdocumented rfl
  rw [parse, hsource] at h
  obtain ⟨tokens, rest, rfl, hname, himports⟩ := exists_headerTokens h
  exact ⟨tokens, rest, hreads, hname, himports ▸ forall₂_imports tokens⟩

end Header

end GoBuildRules
