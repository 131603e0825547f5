import GoBuildRules.Proofs.Package.Partition
import GoBuildRules.Proofs.Package.Removal

/-!
# Files that cannot be used

A file that cannot be read, whose header or directives are malformed, that imports `"C"` in a test,
or that has an extension nothing can be built from, has no record (`IsUnusable`). Such files touch
nothing but the errors: `ofDirectory_without_unusable` takes any number of them away.

The files that are no Go files are looked at only when some Go file declares a package
(`declaresPackage`). In a directory without one, no error is given about them.
-/

namespace GoBuildRules

open Package

namespace Analysis

/-- The entry is a file of the directory that has an error instead of a record. -/
def IsUnusable (read : HeaderReader) (config : Config) (tree : FileTree) (dir : Path)
    (entry : TreeEntry) : Prop :=
  entry ∈ filesIn tree dir ∧ ∃ e, record read config tree dir entry = .error e

/-- Whether some Go file that has a record declares a package other than documentation. -/
def declaresPackage (record : TreeEntry → Except FileError SourceFile) (files : List TreeEntry) :
    Bool :=
  (goFiles record files).any (·.packageName != documentationPackage)

section Unusable

variable {record : TreeEntry → Except FileError SourceFile} {config : Config} {dir : Path}
  {files gone : List TreeEntry} {entry : TreeEntry} {name : String} {e : FileError}

/-- A file without a record is no part of any package. -/
theorem part?_of_error (hrecord : record entry = .error e) : part? record name entry = none := by
  rw [Option.eq_none_iff_forall_ne_some]
  intro file hpart
  rw [(part?_eq_some_iff.mp hpart).1] at hrecord
  cases hrecord

theorem goFiles_remaining_of_unusable (hunusable : ∀ entry ∈ gone, ∃ e, record entry = .error e) :
    goFiles record (remaining gone files) = goFiles record files := by
  rw [goFiles_eq_filterMap, goFiles_eq_filterMap, filterMap_remaining]
  refine List.filterMap_congr fun entry _ => ?_
  by_cases hentry : entry ∈ gone
  · obtain ⟨e, he⟩ := hunusable entry hentry
    simp [hentry, he, Except.toOption]
  · rw [if_pos hentry]

/-- Nothing that follows from the package name changes, but for the errors about the files that are
gone. -/
theorem conclude_remaining_of_unusable (hunusable : ∀ entry ∈ gone, ∃ e, record entry = .error e)
    {start : String → Package} (hname : ∀ name, (start name).name = name)
    (hstart : ∀ name fact, ¬ (start name).Holds fact)
    (selected : Option String) :
    conclude record config (remaining gone files) start selected =
      withoutReports gone (reportsOf record files selected)
        (conclude record config files start selected) := by
  cases selected with
  | none =>
    have hrun : ∀ files : List TreeEntry, Results.errors ((files.filter isGo).map record) =
        files.filterMap (Run.unusableGo.error? record "") := fun _ => errors_goResults
    rw [conclude, conclude, withoutReports, hrun, filterMap_error?, filterMap_report?_remaining,
      reportsOf]
  | some name =>
    have hcgo : usesCgo record (remaining gone files) = usesCgo record files := by
      rw [usesCgo, usesCgo, goFiles_remaining_of_unusable hunusable]
    -- The files that are gone are no parts, so the others give the same facts.
    refine conclude_remaining (hname name) (hstart name) fun fact => ?_
    rw [hcgo]
    refine exists_part_remaining_iff fun entry hentry => ?_
    obtain ⟨e, he⟩ := hunusable entry hentry
    exact part?_of_error he

end Unusable

/-! ## The errors about a file that cannot be used -/

/-- A directory has no package name exactly when none of its Go files declares one. -/
theorem selectName_goFiles_eq_none_iff {record : TreeEntry → Except FileError SourceFile}
    {files : List TreeEntry} (dir : Path) :
    selectName dir (goFiles record files) = .ok none ↔ declaresPackage record files = false := by
  rw [selectName_eq_none_iff, declaresPackage, List.any_eq_false]
  simp only [mem_packageNames_iff]
  constructor
  · rintro h file hfile hname
    exact h file.packageName ⟨file, hfile, rfl, bne_iff_ne.mp hname⟩
  · rintro h _ ⟨file, hfile, rfl, hname⟩
    exact h file hfile (bne_iff_ne.mpr hname)

section Errors

variable {record : TreeEntry → Except FileError SourceFile} {dir : Path} {files : List TreeEntry}
  {entry : TreeEntry} {e : FileError}

/-- The file has its own error and no other, unless it is not looked at. -/
theorem about_reportsOf (hnodup : files.Nodup) (hentry : entry ∈ files)
    (he : record entry = .error e) {selected : Option String}
    (hselected : selectName dir (goFiles record files) = .ok selected) :
    about (reportsOf record files selected) entry =
      if isGo entry || declaresPackage record files then [e] else [] := by
  -- Without a name only the Go files have been looked at, and with one all files have.
  cases selected with
  | none =>
    have hrun : about (files.filterMap (Run.unusableGo.report? record "")) entry =
        (Run.unusableGo.error? record "" entry).toList := about_filterMap _ hnodup hentry
    rw [(selectName_goFiles_eq_none_iff dir).mp hselected, Bool.or_false, reportsOf, hrun,
      Run.error?, he]
    cases isGo entry <;> rfl
  | some name =>
    have hdeclares : declaresPackage record files = true := by
      rw [← Bool.not_eq_false, ← selectName_goFiles_eq_none_iff dir, hselected]
      intro hnone
      cases Except.ok.inj hnone
    rw [hdeclares, Bool.or_true, if_pos rfl, reportsOf, about_reports hnodup hentry,
      faults_of_error he]

end Errors

/-! ## The directory -/

/-- **Failures of files are isolated.** Taking away any files that cannot be used takes away the
errors about them and changes nothing else: neither the package nor the error of the directory, nor
the other errors and their order. About each such file there is its own error and no other; only
about a file that is no Go file there is none when no Go file declares a package. -/
theorem ofDirectory_without_unusable (read : HeaderReader) (config : Config) (tree : FileTree)
    (dir : Path) (gone : List TreeEntry)
    (hgone : ∀ entry ∈ gone, IsUnusable read config tree dir entry) :
    ∃ reports : List Report,
      Package.ofDirectory read config (tree.without gone) dir =
          (Package.ofDirectory read config tree dir).map (withoutReports gone reports) ∧
        ∀ analysis, Package.ofDirectory read config tree dir = .ok analysis →
          IsReported (filesIn tree dir) analysis.errors reports ∧
            ∀ entry ∈ gone, ∀ e, record read config tree dir entry = .error e →
              about reports entry =
                if isGo entry || declaresPackage (record read config tree dir) (filesIn tree dir)
                then [e] else [] := by
  cases hlist : tree.list dir with
  | error e =>
    -- A directory that cannot be listed has no files that could be gone.
    have hnil : gone = [] := List.eq_nil_iff_forall_not_mem.mpr fun entry hentry => by
      obtain ⟨entries, hentries⟩ := exists_list_of_mem_filesIn (hgone entry hentry).1
      cases hlist.symm.trans hentries
    have herror : Package.ofDirectory read config tree dir = .error (.unlistable dir e) := by
      rw [Package.ofDirectory, hlist]
    rw [hnil, FileTree.without_nil, herror]
    refine ⟨[], rfl, fun analysis hanalysis => ?_⟩
    cases hanalysis
  | ok entries =>
    have hfiles := filesIn_eq hlist
    have hmem : ∀ entry ∈ gone, entry ∈ regular entries :=
      fun entry hentry => hfiles ▸ (hgone entry hentry).1
    have hunusable : ∀ entry ∈ gone, ∃ e, record read config tree dir entry = .error e :=
      fun entry hentry => (hgone entry hentry).2
    have hstart : ∀ name fact, ¬ (emptyPackage config dir entries name).Holds fact :=
      fun name fact => not_holds_start _ _ _ _ fact
    rw [ofDirectory_without_eq_map_conclude hlist hmem, ofDirectory_eq_map_conclude hlist,
      goFiles_remaining_of_unusable hunusable, hfiles]
    -- The name is chosen as before, and the reports are those that follow from it.
    cases hselected : selectName dir
        (goFiles (record read config tree dir) (regular entries)) with
    | error e =>
      refine ⟨[], rfl, fun analysis hanalysis => ?_⟩
      cases hanalysis
    | ok selected =>
      refine ⟨reportsOf (record read config tree dir) (regular entries) selected,
        congrArg Except.ok
          (conclude_remaining_of_unusable hunusable (fun _ => rfl) hstart selected),
        fun analysis hanalysis => ?_⟩
      obtain rfl := Except.ok.inj hanalysis
      exact ⟨(isReading_record read config tree dir).isReported_conclude _ selected,
        fun entry hentry e he => about_reportsOf (pairwise_regular hlist).nodup (hmem entry hentry)
          he hselected⟩

/-- A directory with a Go file, a Go file that cannot be read and a file that cannot be built. -/
def twoUnusable : FileTree :=
  let empty := FileTree.empty (.ofText "/repo")
  ((empty.add (.ofText "d/a.go") (.file [])).add (.ofText "d/b.go") .lockedFile).add
    (.ofText "d/c.m") (.file [])

theorem ofDirectory_without_unusable_twoUnusable :
    let read : HeaderReader := fun _ => .ok { packageName := "d", imports := [] }
    let config : Config :=
      { goPrefix := "", repoRoot := .ofText "/repo", platforms := Target.twoSystems }
    let dir : Path := .ofText "/repo/d"
    let gone : List TreeEntry :=
      [⟨.ofText "/repo/d/b.go", .lockedFile⟩, ⟨.ofText "/repo/d/c.m", .file []⟩]
    (∀ entry ∈ gone, IsUnusable read config twoUnusable dir entry) ∧
      ∃ reports : List Report,
        Package.ofDirectory read config (twoUnusable.without gone) dir =
            (Package.ofDirectory read config twoUnusable dir).map (withoutReports gone reports) ∧
          ∀ analysis, Package.ofDirectory read config twoUnusable dir = .ok analysis →
            IsReported (filesIn twoUnusable dir) analysis.errors reports ∧
              ∀ entry ∈ gone, ∀ e, record read config twoUnusable dir entry = .error e →
                about reports entry =
                  if isGo entry || declaresPackage (record read config twoUnusable dir)
                    (filesIn twoUnusable dir)
                  then [e] else [] := by
  intro read config dir gone
  have hgone : ∀ entry ∈ gone, IsUnusable read config twoUnusable dir entry := by
    intro entry hentry
    have hall : gone.all fun entry => (filesIn twoUnusable dir).contains entry &&
        (Results.error? (record read config twoUnusable dir entry)).isSome := by decide +kernel
    have h := List.all_eq_true.mp hall entry hentry
    rw [Bool.and_eq_true, List.contains_iff_mem, Option.isSome_iff_exists] at h
    obtain ⟨e, he⟩ := h.2
    exact ⟨h.1, e, Analysis.error?_eq_some_iff.mp he⟩
  exact ⟨hgone, ofDirectory_without_unusable read config twoUnusable dir gone hgone⟩

/-- A directory with nothing but a file that cannot be built. -/
def onlyUnbuildable : FileTree :=
  (FileTree.empty (.ofText "/repo")).add (.ofText "d/x.m") (.file [])

/-- There need be no error about a file that cannot be used: where no Go file declares a package,
the other files are not looked at. -/
theorem errorsAbout_onlyUnbuildable :
    let read : HeaderReader := fun _ => .ok { packageName := "d", imports := [] }
    let config : Config := { goPrefix := "", repoRoot := .ofText "/repo" }
    let dir : Path := .ofText "/repo/d"
    let entry : TreeEntry := ⟨.ofText "/repo/d/x.m", .file []⟩
    IsUnusable read config onlyUnbuildable dir entry ∧
      ∃ analysis, Package.ofDirectory read config onlyUnbuildable dir = .ok analysis ∧
        (errorsAbout analysis.errors entry.name).length ≠ 1 := by
  intro read config dir entry
  have hunusable : IsUnusable read config onlyUnbuildable dir entry :=
    ⟨by decide +kernel, ⟨.ofText "/repo/d/x.m", .unsupportedExtension⟩, by decide +kernel⟩
  have hanalysis : Package.ofDirectory read config onlyUnbuildable dir = .ok ⟨none, []⟩ := by
    decide +kernel
  exact ⟨hunusable, ⟨none, []⟩, hanalysis, by decide⟩

end Analysis

end GoBuildRules
