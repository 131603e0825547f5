import GoBuildRules.Proofs.Package.Partition
import GoBuildRules.Proofs.Package.Removal

/-!
# Which package a directory has

The Go files of a directory declare packages (`Analysis.Declares`). A directory without a
declaration has no package. Of the declared packages it has the only one, or the one that is named
as the directory, and it fails when there are several and none is so named
(`Analysis.ofDirectory_selects`). The package that is chosen is made of its own files
(`Analysis.IsSelection`): about each file of another package there is one error, and the directory
has no package after all when no file of the chosen one takes part in any build.

A directory without a name of its own, such as the root, counts as one with the empty name
(`Analysis.IsSuggested`).
-/

namespace GoBuildRules

open Package

/-! ## Go sources -/

theorem Package.mem_targets_iff {package : Package} {target : Target} :
    target ∈ package.targets ↔ ∃ role : Role, role.target package = target := by
  simp only [targets, List.mem_cons, List.not_mem_nil, or_false]
  constructor
  · rintro (rfl | rfl | rfl | rfl | rfl)
    exacts [⟨.library, rfl⟩, ⟨.cgoLibrary, rfl⟩, ⟨.binary, rfl⟩, ⟨.test, rfl⟩,
      ⟨.externalTest, rfl⟩]
  · rintro ⟨role, rfl⟩
    cases role <;> simp [Role.target]

/-- A package has Go when some target has a source whose name ends in `.go`. -/
theorem Package.hasGo_eq_true_iff {package : Package} :
    package.hasGo = true ↔ ∃ role : Role, ∃ s ∈ (role.target package).sources.toList,
      Text.endsWith ".go" s = true := by
  simp only [hasGo, firstGoFile?, List.findSome?_isSome_iff, mem_targets_iff]
  constructor
  · rintro ⟨_, ⟨role, rfl⟩, hgo⟩
    exact ⟨role, PlatformStrings.hasGo_eq_true_iff.mp hgo⟩
  · rintro ⟨role, hgo⟩
    exact ⟨_, ⟨role, rfl⟩, PlatformStrings.hasGo_eq_true_iff.mpr hgo⟩

namespace Analysis

/-! ## Declarations -/

/-- The entry is a Go file of the directory with the record. -/
def IsGoRecord (read : HeaderReader) (config : Config) (tree : FileTree) (dir : Path)
    (entry : TreeEntry) (file : SourceFile) : Prop :=
  entry ∈ filesIn tree dir ∧ isGo entry = true ∧ record read config tree dir entry = .ok file

/-- Some Go file of the directory that has a record is of the package, which is not documentation.
For an external test the `_test` after the package name is taken off. -/
def Declares (read : HeaderReader) (config : Config) (tree : FileTree) (dir : Path)
    (name : String) : Prop :=
  name ≠ documentationPackage ∧
    ∃ entry file, IsGoRecord read config tree dir entry file ∧ file.packageName = name

/-- The name is that of the directory, with `_` for each `-`. -/
def IsNamed (dir : Path) (name : String) : Prop :=
  ∃ base, dir.fileName? = some base ∧
    name = String.ofList (base.toList.map fun c => if c = '-' then '_' else c)

/-- The directory has the name, or it has none and the name is empty. -/
def IsSuggested (dir : Path) (name : String) : Prop :=
  IsNamed dir name ∨ dir.fileName? = none ∧ name = ""

/-- The Go files of the directory declare several packages, and none of them is suggested by the
directory. -/
def IsAmbiguous (read : HeaderReader) (config : Config) (tree : FileTree) (dir : Path) : Prop :=
  (∃ first, Declares read config tree dir first ∧
      ∃ second, Declares read config tree dir second ∧ first ≠ second) ∧
    ¬ ∃ name, Declares read config tree dir name ∧ IsSuggested dir name

/-- The package has the name that is chosen for the directory, and its files are those that declare
it. -/
structure IsSelection (read : HeaderReader) (config : Config) (tree : FileTree) (dir : Path)
    (package : Package) (errors : List FileError) : Prop where
  declared : Declares read config tree dir package.name
  only_or_suggested : (∀ other, Declares read config tree dir other → other = package.name) ∨
    IsSuggested dir package.name
  /-- A Go source is a file of the package. -/
  sources : ∀ role : Role, ∀ s ∈ (role.target package).sources.toList,
    Text.endsWith ".go" s = true →
      ∃ entry file, IsGoRecord read config tree dir entry file ∧ entry.name = s ∧
        file.packageName = package.name
  /-- About a file of another package there is one error, which says so. -/
  mismatch : ∃ reports, IsReported (filesIn tree dir) errors reports ∧
    ∀ entry file, IsGoRecord read config tree dir entry file →
      file.packageName ≠ documentationPackage → file.packageName ≠ package.name →
        about reports entry = [⟨file.path, .packageMismatch file.packageName package.name⟩]
  /-- There is a Go source when a file of the package takes part in some build. -/
  hasGo_iff : package.hasGo = true ↔
    ∃ entry file, IsGoRecord read config tree dir entry file ∧
      file.packageName = package.name ∧ file.IsAdmitted config.platforms

variable {read : HeaderReader} {config : Config} {tree : FileTree} {dir : Path}
  {entries : List TreeEntry} {name : String} {package : Package} {errors : List FileError}

theorem declares_iff_exists_any : Declares read config tree dir name ↔
    name ≠ documentationPackage ∧ ∃ entry ∈ filesIn tree dir, isGo entry = true ∧
      (record read config tree dir entry).toOption.any (·.packageName = name) = true := by
  simp only [Declares, IsGoRecord, Option.any_eq_true, toOption_eq_some_iff, decide_eq_true_eq]
  refine and_congr_right fun _ => exists_congr fun entry => ?_
  simp only [and_assoc, exists_and_left]

instance : Decidable (Declares read config tree dir name) :=
  decidable_of_iff _ declares_iff_exists_any.symm

theorem suggestedName_eq_iff : suggestedName dir = name ↔ IsSuggested dir name := by
  rw [suggestedName, IsSuggested, IsNamed]
  cases dir.fileName? with
  | none => simp [eq_comm]
  | some base => simp [eq_comm]

theorem mem_packageNames_iff_declares (hlist : tree.list dir = .ok entries) :
    name ∈ packageNames (goFiles (record read config tree dir) (regular entries)) ↔
      Declares read config tree dir name := by
  simp only [mem_packageNames_goFiles_iff, Declares, IsGoRecord, filesIn_eq hlist, and_assoc,
    exists_and_left]

/-! ## The chosen package -/

section Chosen

variable (h : IsAnalysis (record read config tree dir) config dir (filesIn tree dir) package errors)

include h

theorem IsAnalysis.exists_goRecord_of_mem_sources {role : Role} {s : String}
    (hs : s ∈ (role.target package).sources.toList) (hgo : Text.endsWith ".go" s = true) :
    ∃ entry file, IsGoRecord read config tree dir entry file ∧ entry.name = s ∧
      part? (record read config tree dir) package.name entry = some file ∧
      file.IsAdmitted config.platforms := by
  obtain ⟨entry, hentry, rfl, file, ⟨hpart, -⟩, hadmitted⟩ := h.mem_sources_iff.mp hs
  exact ⟨entry, file, ⟨hentry, hgo, (part?_eq_some_iff.mp hpart).1⟩, rfl, hpart, hadmitted⟩

theorem IsAnalysis.hasGo_iff (hname : package.name ≠ documentationPackage) :
    package.hasGo = true ↔ ∃ entry file, IsGoRecord read config tree dir entry file ∧
      file.packageName = package.name ∧ file.IsAdmitted config.platforms := by
  rw [hasGo_eq_true_iff]
  constructor
  · rintro ⟨role, s, hs, hgo⟩
    obtain ⟨entry, file, hfile, -, hpart, hadmitted⟩ := h.exists_goRecord_of_mem_sources hs hgo
    exact ⟨entry, file, hfile, ((part?_eq_some_iff.mp hpart).2 hfile.2.1).2, hadmitted⟩
  -- A Go file always has a place in some target, so it shows there when some build admits it.
  · rintro ⟨entry, file, ⟨hentry, hgo, hrecord⟩, hfile, hadmitted⟩
    have hpart : part? (record read config tree dir) package.name entry = some file :=
      part?_eq_some_iff.mpr ⟨hrecord, fun _ => ⟨hfile ▸ hname, hfile⟩⟩
    obtain ⟨htaken, role, hrole⟩ := (h.isRecord hrecord).exists_role hgo
      (usesCgo (record read config tree dir) (filesIn tree dir))
    exact ⟨role, entry.name, h.mem_sources_iff.mpr
      ⟨entry, hentry, rfl, file, ⟨hpart, htaken, hrole⟩, hadmitted⟩, hgo⟩

/-- The package of the files that declare a suitable name is the one that is chosen. -/
theorem IsAnalysis.isSelection (hdeclared : Declares read config tree dir package.name)
    (hchosen : (∀ other, Declares read config tree dir other → other = package.name) ∨
      IsSuggested dir package.name) :
    IsSelection read config tree dir package errors where
  declared := hdeclared
  only_or_suggested := hchosen
  sources := fun role s hs hgo => by
    obtain ⟨entry, file, hfile, hname, hpart, -⟩ := h.exists_goRecord_of_mem_sources hs hgo
    exact ⟨entry, file, hfile, hname, ((part?_eq_some_iff.mp hpart).2 hfile.2.1).2⟩
  mismatch := by
    refine ⟨_, h.errors_eq ▸ h.toIsReading.isReported package.name (filesIn tree dir), ?_⟩
    rintro entry file ⟨hentry, hgo, hrecord⟩ hdocumentation hname
    rw [about_reports h.ascending.nodup hentry]
    exact faults_of_mismatch hgo hrecord hdocumentation hname
  hasGo_iff := h.hasGo_iff hdeclared.1

end Chosen

/-! ## The directory -/

section Listed

variable (hlist : tree.list dir = .ok entries)

include hlist

theorem ofDirectory_eq_error_iff {e : DirectoryError} :
    Package.ofDirectory read config tree dir = .error e ↔
      IsAmbiguous read config tree dir ∧ e = .multiplePackages dir
        (packageNames (goFiles (record read config tree dir) (regular entries))).toList := by
  have hselect : Package.ofDirectory read config tree dir = .error e ↔
      selectName dir (goFiles (record read config tree dir) (regular entries)) = .error e := by
    rw [ofDirectory_eq_map_conclude hlist]
    cases selectName dir (goFiles (record read config tree dir) (regular entries)) <;>
      simp [Except.map]
  have hsuggested : suggestedName dir ∉
        packageNames (goFiles (record read config tree dir) (regular entries)) ↔
      ¬ ∃ name, Declares read config tree dir name ∧ IsSuggested dir name := by
    rw [mem_packageNames_iff_declares hlist]
    simp only [← suggestedName_eq_iff, exists_eq_right']
  rw [hselect, selectName_eq_error_iff, hsuggested, ← and_assoc, IsAmbiguous]
  simp only [mem_packageNames_iff_declares hlist]

/-- An analysis of a directory in which a package is declared is about the chosen one. -/
theorem exists_isSelection {analysis : Analysis}
    (h : Package.ofDirectory read config tree dir = .ok analysis)
    (hdeclared : Declares read config tree dir name) :
    ∃ package, IsSelection read config tree dir package analysis.errors ∧
      analysis.package = if package.hasGo then some package else none := by
  obtain ⟨selected, hselected, rfl⟩ := exists_selected_of_ofDirectory hlist h
  cases selected with
  | none =>
    rw [selectName_eq_none_iff] at hselected
    exact absurd ((mem_packageNames_iff_declares hlist).mpr hdeclared) (hselected name)
  | some name =>
    obtain ⟨hmem, hchosen⟩ := selectName_eq_some_iff.mp hselected
    simp only [mem_packageNames_iff_declares hlist, suggestedName_eq_iff] at hmem hchosen
    -- The package is the one that is collected for the name, even where it is dropped for want of
    -- Go.
    let package := (collected (record read config tree dir) config (regular entries)
      (emptyPackage config dir entries name)).1.clean
    have hname : package.name = name := name_collected
    have hanalysis : IsAnalysis (record read config tree dir) config dir (filesIn tree dir) package
        (runs (record read config tree dir) name (regular entries)) := by
      rw [filesIn_eq hlist]
      exact isAnalysis_collected (isReading_record read config tree dir) (pairwise_regular hlist)
        (not_holds_start _ _ _ _)
    exact ⟨package, hanalysis.isSelection (hname.symm ▸ hmem) (hname.symm ▸ hchosen), rfl⟩

theorem package_eq_none_of_not_declares {analysis : Analysis}
    (h : Package.ofDirectory read config tree dir = .ok analysis)
    (hnone : ∀ name, ¬ Declares read config tree dir name) : analysis.package = none := by
  obtain ⟨selected, hselected, rfl⟩ := exists_selected_of_ofDirectory hlist h
  have hselected_none : selectName dir
      (goFiles (record read config tree dir) (regular entries)) = .ok none := by
    rw [selectName_eq_none_iff]
    simpa only [mem_packageNames_iff_declares hlist] using hnone
  obtain rfl := Except.ok.inj (hselected_none.symm.trans hselected)
  rfl

end Listed

/-- A directory that cannot be listed declares nothing. -/
theorem exists_list_of_declares (h : Declares read config tree dir name) :
    ∃ entries, tree.list dir = .ok entries := by
  obtain ⟨-, entry, file, hfile, -⟩ := h
  exact exists_list_of_mem_filesIn hfile.1

/-- **The package of a directory is exactly the one that its Go files and its name select.** The
directory fails because of several packages when several are declared and none is suggested by the
directory, and only then; the error names the directory and the declared packages, in order and
without repetition. Otherwise a directory that can be listed has an analysis. Without a declared
package the analysis has none. With one it is about the chosen package: that is the package of the
directory, unless no target has a Go source. -/
theorem ofDirectory_selects (read : HeaderReader) (config : Config) (tree : FileTree) (dir : Path) :
    ((∃ owner names,
        Package.ofDirectory read config tree dir = .error (.multiplePackages owner names)) ↔
      IsAmbiguous read config tree dir) ∧
    (∀ owner names,
        Package.ofDirectory read config tree dir = .error (.multiplePackages owner names) →
      owner = dir ∧ names.Pairwise (· < ·) ∧
        ∀ name, name ∈ names ↔ Declares read config tree dir name) ∧
    (∀ entries, tree.list dir = .ok entries → ¬ IsAmbiguous read config tree dir →
      ∃ analysis, Package.ofDirectory read config tree dir = .ok analysis) ∧
    ∀ analysis, Package.ofDirectory read config tree dir = .ok analysis →
      ((∀ name, ¬ Declares read config tree dir name) → analysis.package = none) ∧
      ((∃ name, Declares read config tree dir name) →
        ∃ package, IsSelection read config tree dir package analysis.errors ∧
          (analysis.package = some package ∧ package.hasGo = true ∨
            analysis.package = none ∧ ∀ role : Role, ∀ s ∈ (role.target package).sources.toList,
              Text.endsWith ".go" s = false)) := by
  -- Each part goes back to the listing and the choice of the name, which fails or gives a
  -- selection.
  refine ⟨⟨?_, fun hambiguous => ?_⟩, fun owner names h => ?_, fun entries hlist hunique => ?_,
    fun analysis h => ?_⟩
  · rintro ⟨owner, names, h⟩
    obtain ⟨entries, hlist⟩ := exists_list_of_ofDirectory h nofun
    exact ((ofDirectory_eq_error_iff hlist).mp h).1
  · obtain ⟨first, hfirst, -⟩ := hambiguous.1
    obtain ⟨entries, hlist⟩ := exists_list_of_declares hfirst
    exact ⟨dir, _, (ofDirectory_eq_error_iff hlist).mpr ⟨hambiguous, rfl⟩⟩
  · obtain ⟨entries, hlist⟩ := exists_list_of_ofDirectory h nofun
    obtain ⟨rfl, rfl⟩ := DirectoryError.multiplePackages.inj
      ((ofDirectory_eq_error_iff hlist).mp h).2
    exact ⟨rfl, StringSet.ascending _, fun name => mem_packageNames_iff_declares hlist⟩
  · cases houtcome : Package.ofDirectory read config tree dir with
    | error e => exact absurd ((ofDirectory_eq_error_iff hlist).mp houtcome).1 hunique
    | ok analysis => exact ⟨analysis, rfl⟩
  · obtain ⟨entries, hlist⟩ := exists_list_of_ofDirectory h nofun
    refine ⟨package_eq_none_of_not_declares hlist h, fun ⟨name, hdeclared⟩ => ?_⟩
    obtain ⟨package, hselection, hpackage⟩ := exists_isSelection hlist h hdeclared
    refine ⟨package, hselection, ?_⟩
    cases hgo : package.hasGo with
    | true => exact .inl ⟨by rw [hpackage, hgo, if_pos rfl], rfl⟩
    | false =>
      refine .inr ⟨by rw [hpackage, hgo, if_neg Bool.false_ne_true], fun role s hs => ?_⟩
      rw [← Bool.not_eq_true, hasGo_eq_true_iff] at hgo
      exact Bool.eq_false_iff.mpr fun hend => hgo ⟨role, s, hs, hend⟩

/-- A directory with files of two packages, of which one has the name of the directory. -/
def twoPackages : FileTree :=
  let empty := FileTree.empty (.ofText "/repo")
  (empty.add (.ofText "d-x/a.go") (.file "package d_x\n".toUTF8.toList)).add (.ofText "d-x/b.go")
    (.file "package e\n".toUTF8.toList)

theorem ofDirectory_selects_twoPackages :
    let config : Config :=
      { goPrefix := "", repoRoot := .ofText "/repo", platforms := Target.twoSystems }
    let dir : Path := .ofText "/repo/d-x"
    ∃ package errors,
      Package.ofDirectory Header.parse config twoPackages dir = .ok ⟨some package, errors⟩ ∧
      IsSelection Header.parse config twoPackages dir package errors ∧
      package.name = "d_x" := by
  intro config dir
  have hname : ((Package.ofDirectory Header.parse config twoPackages dir).toOption.bind
      Analysis.package).map Package.name = some "d_x" := by decide +kernel
  obtain ⟨package, hpackage, hname⟩ := Option.map_eq_some_iff.mp hname
  obtain ⟨⟨_, errors⟩, hanalysis, rfl⟩ := Option.bind_eq_some_iff.mp hpackage
  have h := toOption_eq_some_iff.mp hanalysis
  have hdeclared : Declares Header.parse config twoPackages dir "e" := by decide +kernel
  obtain ⟨chosen, hselection, ⟨hchosen, -⟩ | ⟨hnone, -⟩⟩ :=
    ((ofDirectory_selects Header.parse config twoPackages dir).2.2.2 _ h).2 ⟨_, hdeclared⟩
  · obtain rfl := Option.some.inj hchosen
    exact ⟨package, errors, h, hselection, hname⟩
  · cases hnone

/-- The root directory with a test of a package whose name is `_test` and nothing before it, and a
file of another package. -/
def namelessRoot : FileTree :=
  let empty := FileTree.empty (.ofText "/repo")
  (empty.add (.ofText "/a_test.go") (.file "package _test\n".toUTF8.toList)).add (.ofText "/b.go")
    (.file "package b\n".toUTF8.toList)

/-- A directory without a name is not ambiguous when a package with the empty name is declared, so
that package wins. -/
theorem ofDirectory_namelessRoot :
    let config : Config := { goPrefix := "", repoRoot := .ofText "/repo" }
    let dir : Path := .ofText "/"
    Declares Header.parse config namelessRoot dir "" ∧
      Declares Header.parse config namelessRoot dir "b" ∧
      (∀ name, ¬ IsNamed dir name) ∧
      ∃ analysis, Package.ofDirectory Header.parse config namelessRoot dir = .ok analysis ∧
        analysis.package.map Package.name = some "" := by
  intro config dir
  have hnameless : ∀ name, ¬ IsNamed dir name := by
    rintro name ⟨base, hbase, -⟩
    have hnone : dir.fileName? = none := by decide +kernel
    cases hnone.symm.trans hbase
  have hname : (Package.ofDirectory Header.parse config namelessRoot dir).toOption.map
      (fun analysis => analysis.package.map Package.name) = some (some "") := by decide +kernel
  obtain ⟨analysis, hanalysis, hname⟩ := Option.map_eq_some_iff.mp hname
  exact ⟨by decide +kernel, by decide +kernel, hnameless, analysis,
    toOption_eq_some_iff.mp hanalysis, hname⟩

end Analysis

end GoBuildRules
