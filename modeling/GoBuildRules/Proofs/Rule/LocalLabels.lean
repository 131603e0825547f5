import GoBuildRules.Header.Basic
import GoBuildRules.Proofs.Package.Outcome
import GoBuildRules.Proofs.Rule.Denotation

/-!
# Labels of rules of the same package

A rule refers to others by the strings in its attributes `library` and `deps` (`Rule.references`).
A reference that starts with a colon is to a rule of the same package, and it can only be to the
library or the cgo library (`localName_cases`). How many rules have the name is
`count_names_generate`: for the package of a directory it is one, but for a library that does not
exist (`ofDirectory_localLabels`), since imports are resolved without a look at the rules, and for
a program that is named as a library, since it has the name of its directory.
-/

namespace GoBuildRules

open Package

/-! ## The strings of an expression -/

namespace Expr

mutual

/-- The strings that stand in an expression as values: all but the keys of dictionaries. -/
def values : Expr → List String
  | literal _ => []
  | string value => [value]
  | list items _ => listValues items
  | dict entries _ => entriesValues entries
  | call func args => func.values ++ listValues args
  | binary lhs _ rhs => lhs.values ++ rhs.values

/-- The strings that stand in the expressions of a list. -/
def listValues : List Expr → List String
  | [] => []
  | e :: rest => e.values ++ listValues rest

/-- The strings that stand in the values of a dictionary. -/
def entriesValues : List (Expr × Expr) → List String
  | [] => []
  | (_, value) :: rest => value.values ++ entriesValues rest

end

theorem values_strings (l : List String) : (strings l).values = l := by
  rw [strings, values]
  induction l with
  | nil => rfl
  | cons s rest ih => rw [List.map_cons, listValues, ih, values, List.singleton_append]

theorem values_toMultiline (e : Expr) : e.toMultiline.values = e.values := by
  cases e <;> simp only [toMultiline, values]

theorem entriesValues_eq_flatMap (entries : List (Expr × Expr)) :
    entriesValues entries = entries.flatMap fun entry => entry.2.values := by
  induction entries with
  | nil => rfl
  | cons entry rest ih => rw [entriesValues, ih, List.flatMap_cons]

end Expr

namespace Value

theorem values_select (branches : StringMap Expr) :
    (select branches).values = branches.toList.flatMap fun branch => branch.2.values := by
  simp [select, Expr.values, Expr.listValues, Expr.entriesValues_eq_flatMap,
    List.flatMap_map, Expr.values_toMultiline]

/-- The strings in the expression of strings for platforms are just these. -/
theorem values_platformExpr (ps : PlatformStrings) : (platformExpr ps).values = ps.toList := by
  have hconditional : (select (ps.platform.mapValues Expr.strings)).values =
      ps.platform.values.flatten := by
    rw [values_select, StringMap.mapValues, List.flatMap_map, StringMap.values, List.flatMap_def]
    simp only [Expr.values_strings]
  rw [platformExpr, PlatformStrings.toList]
  split
  · rename_i hplatform
    rw [Expr.values_strings, StringMap.values, List.isEmpty_iff.mp hplatform]
    simp
  · split
    · rename_i hgeneric
      rw [hconditional, List.isEmpty_iff.mp hgeneric, List.nil_append]
    · rw [Expr.values, Expr.values_toMultiline, Expr.values_strings, hconditional]

end Value

/-! ## References -/

/-- The attributes by which a rule refers to other rules. -/
def referenceKeys : List String := ["library", "deps"]

/-- The strings by which the rule refers to other rules. -/
def Rule.references (rule : Rule) : List String :=
  rule.attrs.flatMap fun (key, e) => if key ∈ referenceKeys then e.values else []

namespace Generated

variable {config : Config} {package : Package}

/-- The strings by which a rule with the attributes refers to other rules. -/
def Attributes.references (attributes : Attributes) : List String :=
  attributes.values.flatMap fun (key, value) =>
    if key ∈ referenceKeys then value.toExpr.values else []

@[simp]
theorem references_append (a b : Attributes) :
    (a.append b).references = a.references ++ b.references :=
  List.flatMap_append

@[simp]
theorem references_onlyIf (condition : Bool) (attributes : Attributes) :
    (onlyIf condition attributes).references =
      if condition then attributes.references else [] := by
  cases condition <;> rfl

theorem references_attr (key : String) (value : Value) :
    (attr key value).references = if key ∈ referenceKeys then value.toExpr.values else [] :=
  List.flatMap_singleton _ _

theorem references_attr_of_notMem {key : String} (hkey : key ∉ referenceKeys) (value : Value) :
    (attr key value).references = [] := by
  rw [references_attr, if_neg hkey]

@[simp]
theorem references_srcs (target : Target) : (srcs config target).references = [] :=
  references_attr_of_notMem (by decide) _

@[simp]
theorem references_visibility (scope : String) : (visibility scope).references = [] :=
  references_attr_of_notMem (by decide) _

@[simp]
theorem references_testData : (testData package).references = [] := by
  rw [testData, references_onlyIf, references_attr_of_notMem (by decide), ite_self]

theorem references_flags {key : String} (hkey : key ∉ referenceKeys) (ps : PlatformStrings) :
    (flags config key ps).references = [] := by
  rw [flags, references_onlyIf, references_attr_of_notMem hkey, ite_self]

@[simp]
theorem references_onLibrary (condition : Bool) (name : String) :
    (onLibrary condition name).references = if condition then [":" ++ name] else [] := by
  have hkey : "library" ∈ referenceKeys := by decide
  rw [onLibrary, references_onlyIf, references_attr, if_pos hkey, ruleLabel, Value.toExpr,
    Expr.values]

theorem references_foldl_append (attributes : List Attributes) (start : Attributes) :
    (attributes.foldl Attributes.append start).references =
      start.references ++ attributes.flatMap Attributes.references := by
  induction attributes generalizing start with
  | nil => simp
  | cons a rest ih =>
    rw [List.foldl_cons, ih, references_append, List.append_assoc, List.flatMap_cons]

/-- A rule refers to others by the attributes after its name. -/
theorem references_of_mem_rule {condition : Bool} {kind name : String}
    {attributes : List Attributes} {r : Rule}
    (h : r ∈ (rule condition kind name attributes).rules) :
    r.references = attributes.flatMap Attributes.references := by
  rw [rule] at h
  split at h
  · have hattrs : ∀ keywords : List (String × Value),
        (Rule.ofValues kind [] keywords).attrs = keywords.map fun (key, v) => (key, v.toExpr) := by
      intro keywords
      simp [Rule.attrs, Rule.ofValues, List.filterMap_map]
    rw [List.mem_singleton.mp h, Rule.references, hattrs, List.flatMap_map]
    have hname := references_foldl_append attributes (attr "name" (.string name))
    rw [references_attr_of_notMem (by decide), List.nil_append] at hname
    exact hname
  · cases h

/-! ## Dependencies -/

/-- The strings in the expression of strings for platforms are these. -/
theorem mem_values_platformValue {ps : PlatformStrings} {s : String} :
    s ∈ (platformValue config ps).toExpr.values ↔ s ∈ ps.toList := by
  rw [platformValue, Value.toExpr, Value.values_platformExpr, PlatformStrings.mem_toList_iff,
    PlatformStrings.mem_toList_iff]
  refine or_congr_right ⟨?_, ?_⟩
  · rintro ⟨label, hlisted⟩
    obtain ⟨values, hget, hs⟩ := PlatformStrings.mem_listed_iff.mp hlisted
    obtain ⟨⟨name, strings⟩, hentry, heq⟩ := List.mem_map.mp (StringMap.mem_of_get?_ofList hget)
    obtain ⟨-, rfl⟩ := Prod.mk.inj heq
    exact ⟨name, PlatformStrings.mem_listed_iff.mpr ⟨_, StringMap.mem_toList_iff.mp hentry, hs⟩⟩
  · rintro ⟨name, hlisted⟩
    refine ⟨conditionLabel config name, ?_⟩
    rw [conditionLabel, PlatformStrings.listed,
      StringMap.get?_ofList_map_key (conditionLabel_injective config)]
    exact hlisted

/-- The dependencies of a target are labels of imports. -/
theorem exists_import_of_mem_deps {target : Target} {s : String}
    (h : s ∈ (deps config package target).references) :
    ∃ path, labelOf config package path = .ok s := by
  have hvalues : (deps config package target).values =
      if (depLabels config package target).isEmpty then []
      else [("deps", platformValue config (depLabels config package target))] := rfl
  have hkey : "deps" ∈ referenceKeys := by decide
  rw [Attributes.references, hvalues] at h
  split at h
  · cases h
  · rw [List.flatMap_singleton] at h
    simp only [if_pos hkey] at h
    obtain ⟨name, heffective⟩ :=
      PlatformStrings.mem_toList_iff_effective.mp (mem_values_platformValue.mp h)
    obtain ⟨path, -, hlabel⟩ := mem_effective_depLabels.mp heffective
    exact ⟨path, hlabel⟩

end Generated

/-- Of the labels of libraries only that of the same package starts with a colon. -/
theorem Label.eq_libraryName_of_text {label : Label} {x : String} (h : label.text = ":" ++ x) :
    x = Label.libraryName := by
  cases label with
  | here => exact (String.append_right_inj _ |>.mp h).symm
  | inRepository package => exact absurd (congrArg String.toList h) (by simp [text])
  | external repository package => exact absurd (congrArg String.toList h) (by simp [text])

namespace Generated

variable {config : Config} {package : Package}

/-- A dependency on a rule of the same package is one on its library. -/
theorem eq_libraryName_of_mem_deps {target : Target} {x : String}
    (h : ":" ++ x ∈ (deps config package target).references) : x = Label.libraryName := by
  obtain ⟨path, hlabel⟩ := exists_import_of_mem_deps h
  rw [labelOf] at hlabel
  cases hresolve : Label.resolve config.goPrefix path package.rel with
  | error e =>
    rw [hresolve] at hlabel
    cases hlabel
  | ok label =>
    rw [hresolve] at hlabel
    exact Label.eq_libraryName_of_text (Except.ok.inj hlabel)

end Generated

/-! ## The rules that are referred to -/

namespace Package

variable {config : Config} {package : Package} {r : Rule} {x : String}

open Generated in
/-- A rule refers to no rules of the same package but the library, and the cgo library where there
is one. -/
theorem localName_cases (h : r ∈ (package.generate config).rules) (hx : ":" ++ x ∈ r.references) :
    x = Label.libraryName ∨ x = cgoLibraryName ∧ hasCgoLibrary package = true := by
  -- The group of the `.proto` files refers to no rule, and each target by `library` and `deps`
  -- alone.
  rcases Role.mem_rules_generate_iff.mp h with h | ⟨role, h⟩
  · have hsrcs : "srcs" ∉ referenceKeys := by decide
    rw [references_of_mem_rule h] at hx
    simp [references_attr_of_notMem hsrcs] at hx
  · cases role with
    | library =>
      rw [references_of_mem_rule h] at hx
      have hcases : hasCgoLibrary package = true ∧ x = cgoLibraryName ∨
          ":" ++ x ∈ (deps config package package.library).references := by simpa using hx
      rcases hcases with ⟨hcgo, hname⟩ | hdeps
      · exact .inr ⟨hname, hcgo⟩
      · exact .inl (eq_libraryName_of_mem_deps hdeps)
    | cgoLibrary =>
      have hcopts : "copts" ∉ referenceKeys := by decide
      have hclinkopts : "clinkopts" ∉ referenceKeys := by decide
      rw [references_of_mem_rule h] at hx
      have hdeps : ":" ++ x ∈ (deps config package package.cgoLibrary).references := by
        simpa [references_flags hcopts, references_flags hclinkopts] using hx
      exact .inl (eq_libraryName_of_mem_deps hdeps)
    | binary =>
      rw [references_of_mem_rule h] at hx
      have hcases : package.binary.hasGo = true ∧
            ":" ++ x ∈ (deps config package package.binary).references ∨
          hasLibrary package = true ∧ x = Label.libraryName := by simpa using hx
      rcases hcases with ⟨-, hdeps⟩ | ⟨-, hname⟩
      · exact .inl (eq_libraryName_of_mem_deps hdeps)
      · exact .inl hname
    | test =>
      rw [references_of_mem_rule h] at hx
      have hcases : hasLibrary package = true ∧ x = Label.libraryName ∨
          ":" ++ x ∈ (deps config package package.test).references := by simpa using hx
      rcases hcases with ⟨-, hname⟩ | hdeps
      · exact .inl hname
      · exact .inl (eq_libraryName_of_mem_deps hdeps)
    | externalTest =>
      rw [references_of_mem_rule h] at hx
      have hdeps : ":" ++ x ∈ (deps config package package.externalTest).references := by
        simpa using hx
      exact .inl (eq_libraryName_of_mem_deps hdeps)

end Package

/-! ## The names of rules -/

namespace Generated

variable {config : Config} {package : Package} {x : String}

/-- The names of the rules, in order. -/
def names (generated : Generated) : List String :=
  generated.rules.filterMap Rule.name?

@[simp]
theorem count_names_rule (condition : Bool) (kind name : String) (attributes : List Attributes) :
    (rule condition kind name attributes).names.count x =
      if condition = true ∧ name = x then 1 else 0 := by
  have hnames : (rule condition kind name attributes).names = if condition then [name] else [] := by
    have hname : ∀ r ∈ (rule condition kind name attributes).rules, r.name? = some name :=
      fun r hr => name?_of_mem_rule hr
    rw [names]
    cases condition with
    | false => rfl
    | true =>
      obtain ⟨r, hr⟩ : ∃ r, (rule true kind name attributes).rules = [r] := ⟨_, rfl⟩
      simp [hr, hname r (hr ▸ List.mem_singleton_self r)]
  rw [hnames]
  cases condition <;> simp [List.count_singleton, beq_iff_eq]

theorem count_names_generate (config : Config) (package : Package) (x : String) :
    (package.generate config).names.count x =
      (protoGroup package).names.count x + (cgoLibrary config package).names.count x +
        (library config package).names.count x + (binary config package).names.count x +
          (test config package).names.count x + (externalTest config package).names.count x := by
  have hnames : (package.generate config).names =
      (protoGroup package).names ++ ((cgoLibrary config package).names ++
        ((library config package).names ++ ((binary config package).names ++
          ((test config package).names ++ (externalTest config package).names)))) := by
    simp [names, generate]
  rw [hnames]
  simp only [List.count_append, Nat.add_assoc]

/-- Whether the package has a program. -/
def hasCommand (package : Package) : Bool :=
  package.isCommand && (hasLibrary package || package.binary.hasGo)

/-- How many rules have the name of the library: the library, and a program in a directory of that
name. -/
theorem count_libraryName (config : Config) (package : Package) :
    (package.generate config).names.count Label.libraryName =
      (if hasLibrary package = true then 1 else 0) +
        if hasCommand package = true ∧ commandName package = Label.libraryName then 1 else 0 := by
  have hprotos : protosName ≠ Label.libraryName := by decide
  have hcgo : cgoLibraryName ≠ Label.libraryName := by decide
  have htest : testName ≠ Label.libraryName := by decide
  have hexternal : externalTestName ≠ Label.libraryName := by decide
  rw [count_names_generate]
  simp [protoGroup, cgoLibrary, library, binary, test, externalTest, hasCommand, hprotos, hcgo,
    htest, hexternal]

/-- How many rules have the name of the cgo library: the cgo library, and a program in a directory
of that name. -/
theorem count_cgoLibraryName (config : Config) (package : Package) :
    (package.generate config).names.count cgoLibraryName =
      (if hasCgoLibrary package = true then 1 else 0) +
        if hasCommand package = true ∧ commandName package = cgoLibraryName then 1 else 0 := by
  have hprotos : protosName ≠ cgoLibraryName := by decide
  have hlibrary : Label.libraryName ≠ cgoLibraryName := by decide
  have htest : testName ≠ cgoLibraryName := by decide
  have hexternal : externalTestName ≠ cgoLibraryName := by decide
  rw [count_names_generate]
  simp [protoGroup, cgoLibrary, library, binary, test, externalTest, hasCommand, hprotos, hlibrary,
    htest, hexternal]

end Generated

/-! ## The package of a directory -/

namespace Analysis

/-- The package of a directory holds no sources for a program. -/
theorem IsAnalysis.binary_hasGo {record : TreeEntry → Except FileError SourceFile}
    {config : Config} {dir : Path} {files : List TreeEntry} {package : Package}
    {errors : List FileError} (h : IsAnalysis record config dir files package errors) :
    package.binary.hasGo = false := by
  have hplace : ∀ place : Place, place.role? ≠ some .binary := by
    intro place
    cases place <;> nofun
  rw [← Bool.not_eq_true, Target.hasGo, PlatformStrings.hasGo_eq_true_iff]
  rintro ⟨name, hname, -⟩
  rcases PlatformStrings.mem_toList_iff.mp hname with hgeneric | ⟨platform, hlisted⟩
  · obtain ⟨-, -, file, -, hgives⟩ := (h.holds_iff (.everywhere .binary .sources name)).mp hgeneric
    exact hplace _ hgives.2.1
  · have hholds : package.Holds (.onPlatform .binary .sources platform name) :=
      PlatformStrings.mem_effective.mpr (.inr hlisted)
    obtain ⟨-, -, file, -, hgives⟩ := (h.holds_iff _).mp hholds
    exact hplace _ hgives.2.1

open Generated in
/-- **Labels of rules of the same package.** A rule refers to the library or to the cgo library.
There is exactly one rule of that name but in two cases: a package without a library can still
depend on the one it does not have, and a program can have the name of a library. -/
theorem ofDirectory_localLabels (read : HeaderReader) (config : Config) (tree : FileTree)
    (dir : Path) {package : Package} {errors : List FileError}
    (h : Package.ofDirectory read config tree dir = .ok ⟨some package, errors⟩) :
    ∀ rule ∈ (package.generate config).rules, ∀ x, ":" ++ x ∈ rule.references →
      (x = Label.libraryName ∨ x = cgoLibraryName) ∧
      (package.generate config).names.count x =
        if x = Label.libraryName ∧ hasLibrary package = false then 0
        else if hasCommand package = true ∧ commandName package = x then 2
        else 1 := by
  intro rule hrule x hx
  have hbinary : package.binary.hasGo = false := by
    rw [Package.ofDirectory] at h
    split at h
    · cases h
    · rename_i entries hlist
      exact (isAnalysis_of_ofEntries (FileTree.pairwise_list hlist) h).binary_hasGo
  rcases localName_cases hrule hx with rfl | ⟨rfl, hcgo⟩
  · refine ⟨.inl rfl, ?_⟩
    rw [count_libraryName]
    cases hlibrary : hasLibrary package with
    | false =>
      -- A program has no sources of its own, so there is none without a library.
      simp [hasCommand, hlibrary, hbinary]
    | true =>
      by_cases hcommand : hasCommand package = true ∧ commandName package = Label.libraryName <;>
        simp [hcommand]
  · refine ⟨.inr rfl, ?_⟩
    have hne : cgoLibraryName ≠ Label.libraryName := by decide
    rw [count_cgoLibraryName, hcgo]
    by_cases hcommand : hasCommand package = true ∧ commandName package = cgoLibraryName <;>
      simp [hne, hcommand]

/-- A directory tree with one Go file. -/
def oneGoFile (path text : String) : FileTree :=
  (FileTree.empty (.ofText "/repo")).add (.ofText path) (.file text.toUTF8.toList)

/-- A directory tree with a library and its test. -/
def testedLibrary : FileTree :=
  (oneGoFile "d/a.go" "package d\n").add (.ofText "d/a_test.go")
    (.file "package d\n".toUTF8.toList)

/-- The configuration of a repository with a prefix of its own. -/
def prefixedConfig : Config :=
  { goPrefix := "example.com/repo", repoRoot := .ofText "/repo",
    platforms := PlatformTable.standard }

/-- The package of the directory has a rule that refers to the library of the package, and `n`
rules have the name of the library. -/
def RefersToLibraries (tree : FileTree) (dir : Path) (n : Nat) : Prop :=
  ∃ package errors,
    Package.ofDirectory Header.parse prefixedConfig tree dir = .ok ⟨some package, errors⟩ ∧
    ∃ rule ∈ (package.generate prefixedConfig).rules,
      ":" ++ Label.libraryName ∈ rule.references ∧
      (package.generate prefixedConfig).names.count Label.libraryName = n

open Generated in
theorem ofDirectory_localLabels_testedLibrary :
    RefersToLibraries testedLibrary (.ofText "/repo/d") 1 := by
  have hany : ((Package.ofDirectory Header.parse prefixedConfig testedLibrary
      (.ofText "/repo/d")).toOption.bind
      Analysis.package).any (fun package => hasLibrary package && !package.isCommand &&
        (package.generate prefixedConfig).rules.any fun rule =>
          rule.references.contains (":" ++ Label.libraryName)) = true := by decide +kernel
  simp only [Option.any_eq_true, Bool.and_eq_true, Bool.not_eq_true', List.any_eq_true,
    List.contains_iff_mem] at hany
  obtain ⟨package, hpackage, ⟨hlibrary, hcommand⟩, rule, hrule, hx⟩ := hany
  obtain ⟨⟨_, errors⟩, hanalysis, rfl⟩ := Option.bind_eq_some_iff.mp hpackage
  have h := toOption_eq_some_iff.mp hanalysis
  have hcount := (ofDirectory_localLabels Header.parse prefixedConfig testedLibrary
    (.ofText "/repo/d") h rule hrule Label.libraryName hx).2
  refine ⟨package, errors, h, rule, hrule, hx, hcount.trans ?_⟩
  simp [hlibrary, hasCommand, hcommand]

theorem refersToLibraries_of_any {tree : FileTree} {dir : Path} {n : Nat}
    (h : ((Package.ofDirectory Header.parse prefixedConfig tree dir).toOption.bind
      Analysis.package).any (fun package =>
        (package.generate prefixedConfig).names.count Label.libraryName == n &&
        (package.generate prefixedConfig).rules.any fun rule =>
          rule.references.contains (":" ++ Label.libraryName)) = true) :
    RefersToLibraries tree dir n := by
  simp only [Option.any_eq_true, Bool.and_eq_true, beq_iff_eq, List.any_eq_true,
    List.contains_iff_mem] at h
  obtain ⟨package, hpackage, hcount, rule, hrule, hx⟩ := h
  obtain ⟨⟨_, errors⟩, hanalysis, rfl⟩ := Option.bind_eq_some_iff.mp hpackage
  exact ⟨package, errors, toOption_eq_some_iff.mp hanalysis, rule, hrule, hx, hcount⟩

/-- A test that imports the package of its directory, which has no other files, depends on a
library that there is not. A program in a directory with the name of the library has that name as
well, so that the program refers to two rules at once. -/
theorem refersToLibraries_none_and_two :
    RefersToLibraries
        (oneGoFile "d/d_test.go" "package d_test\n\nimport \"example.com/repo/d\"\n")
        (.ofText "/repo/d") 0 ∧
      RefersToLibraries (oneGoFile "go_default_library/main.go" "package main\n")
        (.ofText "/repo/go_default_library") 2 := by
  constructor <;> exact refersToLibraries_of_any (by decide +kernel)

end Analysis

end GoBuildRules
