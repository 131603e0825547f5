import GoBuildRules.Label
import GoBuildRules.Proofs.FileTree.Spelling
import GoBuildRules.Proofs.Package.Removal
import GoBuildRules.Proofs.Text.Cut

/-!
# Labels of directories

A package is named in two ways: by its directory, from which its path below the repository root is
counted, and by import paths, in which the names of that path follow the prefix of the repository.
The two agree.

* `rel_of_ofDirectory`: the path of a package is that of its directory below the root.
* `resolve_importPath`: an import path leads to the label of the package with the path that follows
  the prefix.
* `importPath_names_directory`: so an import path leads to the package of the directory with the
  same names, and other directories have other labels.
-/

namespace GoBuildRules

/-- The path of a package is counted from the repository root. -/
theorem Analysis.rel_of_ofDirectory {read : HeaderReader} {config : Config} {tree : FileTree}
    {dir : Path} {package : Package} {errors : List FileError}
    (h : Package.ofDirectory read config tree dir = .ok ⟨some package, errors⟩) :
    package.rel = Path.relativeTo config.repoRoot dir := by
  obtain ⟨entries, -, -, hconclude⟩ := exists_conclude_of_ofDirectory h
  let start := emptyPackage config dir entries package.name
  have hidentity : (collected (record read config tree dir) config (regular entries)
      start).1.clean.identity = start.identity := Package.identity_clean.trans identity_collected
  have hpackage := (Analysis.mk.inj hconclude).1
  split at hpackage
  · rw [Option.some.inj hpackage] at hidentity
    exact congrArg (fun identity => identity.2.2.1) hidentity
  · cases hpackage

namespace Label

/-! ## Import paths -/

/-- The characters of the components of an import path. -/
def IsPathChar (c : Char) : Prop :=
  c.isAlphanum = true ∨ c ∈ ['.', '_', '~', '+', '-']

instance (c : Char) : Decidable (IsPathChar c) :=
  inferInstanceAs (Decidable (_ ∨ _))

/-- Whether the text can be a component of an import path. -/
structure IsPathComponent (text : String) : Prop where
  ne_empty : text ≠ ""
  chars : ∀ c ∈ text.toList, IsPathChar c

/-- Whether all components of the path can be components of an import path. -/
def IsImportPath (path : String) : Prop :=
  ∀ component ∈ Text.splitAt '/' path, IsPathComponent component

/-- The import path of the package to which the names lead from the repository root. -/
def importPath (goPrefix : String) (names : List String) : String :=
  "/".intercalate (goPrefix :: names)

variable {goPrefix path fromRel : String} {names others : List String}

theorem IsPathChar.isAllowed {c : Char} (h : IsPathChar c) : isAllowed c = true := by
  simp only [Label.isAllowed, Bool.or_eq_true, List.contains_iff_mem, List.mem_cons]
  rcases h with h | h
  · exact .inl h
  · simp only [List.mem_cons] at h
    tauto

theorem IsPathComponent.slash_notMem {text : String} (h : IsPathComponent text) :
    '/' ∉ text.toList := fun hmem =>
  absurd (h.chars '/' hmem) (by decide)

/-- Nothing is wrong with an import path of valid components. -/
theorem IsImportPath.fault?_eq_none (h : IsImportPath path) : fault? path = none := by
  have hempty : ¬ (Text.splitAt '/' path).any String.isEmpty = true := by
    simp only [List.any_eq_true, String.isEmpty_iff, not_exists, not_and]
    exact fun component hcomponent => (h component hcomponent).ne_empty
  have hallowed : ∀ c ∈ path.toList, isAllowed c = true := by
    rw [← Text.intercalate_splitAt '/' path, String.toList_intercalate]
    refine Text.forall_mem_intercalate (by decide) fun piece hpiece c hc => ?_
    obtain ⟨component, hcomponent, rfl⟩ := List.mem_map.mp hpiece
    exact ((h component hcomponent).chars c hc).isAllowed
  have hfind : path.toList.find? (fun c => !isAllowed c) = none := by
    simpa using hallowed
  rw [fault?, if_neg hempty, hfind]
  rfl

theorem IsImportPath.ne_empty (h : IsImportPath goPrefix) : goPrefix ≠ "" := by
  rintro rfl
  exact (h "" (by decide)).ne_empty rfl

theorem splitAt_intercalate_names (h : ∀ name ∈ names, IsPathComponent name) (hne : names ≠ []) :
    Text.splitAt '/' ("/".intercalate names) = names :=
  Text.splitAt_intercalate hne fun name hname => (h name hname).slash_notMem

/-- The components of the import path are those of the prefix and then the names. -/
theorem splitAt_importPath (h : ∀ name ∈ names, IsPathComponent name) :
    Text.splitAt '/' (importPath goPrefix names) = Text.splitAt '/' goPrefix ++ names := by
  cases names with
  | nil => rw [importPath, String.intercalate_singleton, List.append_nil]
  | cons name names =>
    have hsplit := splitAt_intercalate_names h (List.cons_ne_nil _ _)
    have htext : (importPath goPrefix (name :: names)).toList =
        goPrefix.toList ++ '/' :: ("/".intercalate (name :: names)).toList := by
      simp [importPath, String.intercalate_cons_cons]
    rw [Text.splitAt, htext, List.splitOn_append_cons_self, List.map_append]
    exact congrArg (Text.splitAt '/' goPrefix ++ ·) hsplit

theorem isImportPath_importPath (hgo : IsImportPath goPrefix)
    (hnames : ∀ name ∈ names, IsPathComponent name) : IsImportPath (importPath goPrefix names) := by
  intro component hcomponent
  rw [splitAt_importPath hnames] at hcomponent
  rcases List.mem_append.mp hcomponent with h | h
  · exact hgo component h
  · exact hnames component h

/-- Below the prefix, the path from the repository root is made of the names. -/
theorem localPath?_importPath (hgo : goPrefix ≠ "") (names : List String) :
    localPath? goPrefix (importPath goPrefix names) = some ("/".intercalate names) := by
  have hnonempty : ¬ goPrefix.isEmpty = true := by rwa [String.isEmpty_iff]
  rw [localPath?, if_neg hnonempty]
  cases names with
  | nil => rw [importPath, String.intercalate_singleton, if_pos rfl, String.intercalate_nil]
  | cons name names =>
    have htext : importPath goPrefix (name :: names) =
        goPrefix ++ "/" ++ "/".intercalate (name :: names) :=
      String.intercalate_cons_cons
    -- The path is longer than the prefix, so it is not taken for it.
    have hne : importPath goPrefix (name :: names) ≠ goPrefix := by
      intro heq
      have hlength := congrArg String.length (htext.symm.trans heq)
      simp only [String.length_append] at hlength
      have hslash : "/".length = 1 := rfl
      omega
    rw [if_neg hne, Text.dropStart?_eq_some_iff, htext]

/-- An import path below the prefix leads to the package with the path that follows. -/
theorem resolve_importPath (hgo : IsImportPath goPrefix)
    (hnames : ∀ name ∈ names, IsPathComponent name) (fromRel : String) :
    resolve goPrefix (importPath goPrefix names) fromRel =
      .ok (if "/".intercalate names = fromRel then here
        else inRepository ("/".intercalate names)) := by
  rw [resolve, (isImportPath_importPath hgo hnames).fault?_eq_none,
    localPath?_importPath hgo.ne_empty]

/-! ## Labels -/

/-- Names that are joined by slashes are told apart. -/
theorem eq_of_intercalate_eq (hnames : ∀ name ∈ names, IsPathComponent name)
    (hothers : ∀ name ∈ others, IsPathComponent name)
    (h : "/".intercalate names = "/".intercalate others) : names = others := by
  have hempty_iff : ∀ {names : List String}, (∀ name ∈ names, IsPathComponent name) →
      ("/".intercalate names = "" ↔ names = []) := fun hnames =>
    Text.intercalate_eq_empty_iff fun name hname => (hnames name hname).ne_empty
  by_cases hempty : "/".intercalate names = ""
  · rw [(hempty_iff hnames).mp hempty, (hempty_iff hothers).mp (h.symm.trans hempty)]
  · have hnames_ne := mt (hempty_iff hnames).mpr hempty
    have hothers_ne := mt (hempty_iff hothers).mpr (h ▸ hempty)
    rw [← splitAt_intercalate_names hnames hnames_ne, h,
      splitAt_intercalate_names hothers hothers_ne]

theorem text_inRepository (package : String) :
    (inRepository package).text = "//" ++ package ++ ":go_default_library" := by
  rw [text, String.append_assoc]
  rfl

/-- Only the label in the same package starts with the colon. -/
theorem text_here_ne_inRepository (package : String) :
    here.text ≠ (inRepository package).text := by
  intro h
  have hhead := congrArg (fun text => text.toList.head?) h
  simp [text] at hhead

theorem inRepository_injective {a b : String} (h : (inRepository a).text = (inRepository b).text) :
    a = b := by
  rw [text_inRepository, text_inRepository] at h
  simpa using h

/-- The labels that are used in one package tell the packages of the repository apart. -/
theorem package_eq_of_text_eq {a b : String}
    (h : (if a = fromRel then here else inRepository a).text =
      (if b = fromRel then here else inRepository b).text) : a = b := by
  split at h <;> split at h
  · rename_i ha hb
    rw [ha, hb]
  · exact absurd h (text_here_ne_inRepository b)
  · exact absurd h.symm (text_here_ne_inRepository a)
  · exact inRepository_injective h

/-- **Directories and import paths name the same package.** The path of the package of a directory
is made of the names that lead there from the root, however the directory is spelled. The import
path with the same names leads to the label of this package from everywhere, and import paths with
other names lead to other labels. -/
theorem importPath_names_directory {config : Config} {names : List String}
    (hroot : config.repoRoot.isAbsolute = true) (hgo : IsImportPath config.goPrefix)
    (hnames : ∀ name ∈ names, IsPathComponent name) :
    (∀ read tree dir package errors, config.repoRoot.Spells names dir →
      Package.ofDirectory read config tree dir = .ok ⟨some package, errors⟩ →
        package.rel = "/".intercalate names) ∧
      (∀ fromRel, (resolve config.goPrefix (importPath config.goPrefix names) fromRel).map text =
        .ok (if fromRel = "/".intercalate names then ":go_default_library"
          else "//" ++ "/".intercalate names ++ ":go_default_library")) ∧
      ∀ others, (∀ name ∈ others, IsPathComponent name) → others ≠ names → ∀ fromRel,
        (resolve config.goPrefix (importPath config.goPrefix others) fromRel).map text ≠
          (resolve config.goPrefix (importPath config.goPrefix names) fromRel).map text := by
  refine ⟨?_, ?_, ?_⟩
  · intro read tree dir package errors hspells h
    rw [Analysis.rel_of_ofDirectory h, Path.relativeTo_of_spells hroot hspells]
  · intro fromRel
    rw [resolve_importPath hgo hnames]
    by_cases hsame : fromRel = "/".intercalate names
    · rw [if_pos hsame, if_pos hsame.symm]
      rfl
    · rw [if_neg hsame, if_neg (Ne.symm hsame), ← text_inRepository]
      rfl
  · intro others hothers hne fromRel heq
    rw [resolve_importPath hgo hothers, resolve_importPath hgo hnames] at heq
    exact hne (eq_of_intercalate_eq hothers hnames (package_eq_of_text_eq (Except.ok.inj heq)))

/-- A package two directories below the root. -/
def deepPackage : FileTree :=
  (FileTree.empty (.ofText "/repo")).add (.ofText "lib/v1.2-b/x.go") (.file [])

theorem importPath_names_directory_deepPackage :
    let read : HeaderReader := fun _ => .ok { packageName := "x", imports := [] }
    let config : Config := { goPrefix := "example.com/repo", repoRoot := .ofText "//repo/." }
    let names := ["lib", "v1.2-b"]
    let dir : Path := .ofText "/repo/./lib//v1.2-b/"
    config.repoRoot.isAbsolute = true ∧ IsImportPath config.goPrefix ∧
      (∀ name ∈ names, IsPathComponent name) ∧ config.repoRoot.Spells names dir ∧
      ∃ package errors,
        Package.ofDirectory read config deepPackage dir = .ok ⟨some package, errors⟩ ∧
          package.rel = "lib/v1.2-b" ∧
          (resolve "example.com/repo" "example.com/repo/lib/v1.2-b" "cmd").map text =
            .ok "//lib/v1.2-b:go_default_library" ∧
          (resolve "example.com/repo" "example.com/repo/lib/v1.2-b" "lib/v1.2-b").map text =
            .ok ":go_default_library" ∧
          (resolve "example.com/repo" "example.com/repo/lib" "cmd").map text ≠
            (resolve "example.com/repo" "example.com/repo/lib/v1.2-b" "cmd").map text := by
  intro read config names dir
  have hcomponents : ∀ name ∈ ["example.com", "repo", "lib", "v1.2-b"], IsPathComponent name := by
    have hchars : ∀ name ∈ ["example.com", "repo", "lib", "v1.2-b"],
        name ≠ "" ∧ ∀ c ∈ name.toList, IsPathChar c := by decide
    exact fun name hname => ⟨(hchars name hname).1, (hchars name hname).2⟩
  have hroot : config.repoRoot.isAbsolute = true := by decide
  have hsplit : Text.splitAt '/' config.goPrefix = ["example.com", "repo"] := by decide
  have hgo : IsImportPath config.goPrefix := by
    intro component hcomponent
    rw [hsplit] at hcomponent
    exact hcomponents component (List.mem_append_left ["lib", "v1.2-b"] hcomponent)
  have hnames : ∀ name ∈ names, IsPathComponent name := fun name hname =>
    hcomponents name (List.mem_append_right ["example.com", "repo"] hname)
  have hlib : ∀ name ∈ ["lib"], IsPathComponent name := fun name hname =>
    hnames name (List.mem_append_left ["v1.2-b"] hname)
  have hspells : config.repoRoot.Spells names dir := ⟨by decide, by decide⟩
  have hsome : ((Package.ofDirectory read config deepPackage dir).toOption.bind
      Analysis.package).isSome = true := by decide +kernel
  obtain ⟨package, hpackage⟩ := Option.isSome_iff_exists.mp hsome
  obtain ⟨⟨_, errors⟩, hanalysis, rfl⟩ := Option.bind_eq_some_iff.mp hpackage
  have h := Analysis.toOption_eq_some_iff.mp hanalysis
  obtain ⟨hrel, hlabel, hother⟩ := importPath_names_directory hroot hgo hnames
  exact ⟨hroot, hgo, hnames, hspells, package, errors, h,
    hrel read deepPackage dir package errors hspells h, hlabel "cmd", hlabel "lib/v1.2-b",
    hother ["lib"] hlib (by decide) "cmd"⟩

end Label

end GoBuildRules
