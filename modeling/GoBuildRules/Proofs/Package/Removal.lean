import GoBuildRules.Proofs.FileTree.Removal
import GoBuildRules.Proofs.Package.PerFile

/-!
# Directories without some of their files

The analysis of a directory from which files are taken away, against that of the whole directory.

* `runs_remaining`: the errors of the files that remain are those of all files, without the errors
  about the files that are gone. These are told apart by the files, not by the names in them.
* `clean_collected_eq`: the packages agree when the files that remain give the same facts.
-/

namespace GoBuildRules

open Package

namespace Analysis

/-- The files that a directory lists. -/
def filesIn (tree : FileTree) (dir : Path) : List TreeEntry :=
  match tree.list dir with
  | .ok entries => regular entries
  | .error _ => []

/-- The entries without some of them. -/
def remaining (gone entries : List TreeEntry) : List TreeEntry :=
  entries.filter fun entry => entry ∉ gone

/-- The analysis with the errors of the reports, but for those about some files. -/
def withoutReports (gone : List TreeEntry) (reports : List Report) (analysis : Analysis) :
    Analysis :=
  { analysis with
    errors := (reports.filter fun report => report.entry ∉ gone).map Report.error }

/-- The errors that follow from the choice of a package name, each with its file. -/
def reportsOf (record : TreeEntry → Except FileError SourceFile) (files : List TreeEntry) :
    Option String → List Report
  | none => files.filterMap (Run.unusableGo.report? record "")
  | some name => reports record name files

/-! ## Readings that agree -/

section Conclude

variable {record record' : TreeEntry → Except FileError SourceFile} {config : Config}
  {files entries : List TreeEntry} {name : String}

theorem goFiles_eq_filterMap (record : TreeEntry → Except FileError SourceFile)
    (files : List TreeEntry) :
    goFiles record files =
      files.filterMap fun entry => if isGo entry then (record entry).toOption else none := by
  rw [goFiles, Results.values, List.filterMap_map, List.filterMap_filter]
  rfl

theorem goFiles_congr (h : ∀ entry ∈ files, record entry = record' entry) :
    goFiles record files = goFiles record' files := by
  rw [goFiles_eq_filterMap, goFiles_eq_filterMap]
  refine List.filterMap_congr fun entry hentry => ?_
  rw [h entry hentry]

theorem results_congr (h : ∀ entry ∈ files, record entry = record' entry) :
    results record name files = results record' name files := by
  rw [results, results, goFiles_congr h]
  refine congrArg _ (List.map_congr_left fun entry hentry => ?_)
  exact h entry (List.mem_filter.mp hentry).1

theorem runs_congr (h : ∀ entry ∈ files, record entry = record' entry) :
    runs record name files = runs record' name files := by
  have hrun : ∀ run : Run, files.filterMap (run.error? record name) =
      files.filterMap (run.error? record' name) := by
    refine fun run => List.filterMap_congr fun entry hentry => ?_
    cases run <;> rw [Run.error?, Run.error?, h entry hentry]
  rw [runs, runs, hrun, hrun, hrun]

/-- Only the records of the files count. -/
theorem conclude_congr (h : ∀ entry ∈ files, record entry = record' entry)
    (start : String → Package) (selected : Option String) :
    conclude record config files start selected = conclude record' config files start selected := by
  cases selected with
  | none =>
    refine congrArg (Analysis.mk none) (congrArg Results.errors ?_)
    exact List.map_congr_left fun entry hentry => h entry (List.mem_filter.mp hentry).1
  | some name =>
    have hcollected : collected record config files (start name) =
        collected record' config files (start name) := by
      rw [collected, collected, usesCgo, usesCgo, results_congr h, goFiles_congr h]
    rw [conclude, conclude, hcollected, runs_congr h]

end Conclude

/-! ## The choice of the name -/

theorem mem_packageNames_iff {files : List SourceFile} {name : String} :
    name ∈ packageNames files ↔
      ∃ file ∈ files, file.packageName = name ∧ file.packageName ≠ documentationPackage := by
  rw [packageNames, StringSet.mem_ofList, List.mem_filter, List.mem_map, bne_iff_ne]
  constructor
  · rintro ⟨⟨file, hfile, rfl⟩, hname⟩
    exact ⟨file, hfile, rfl, hname⟩
  · rintro ⟨file, hfile, rfl, hname⟩
    exact ⟨⟨file, hfile, rfl⟩, hname⟩

/-- The names are those that the Go files with a record declare. -/
theorem mem_packageNames_goFiles_iff {record : TreeEntry → Except FileError SourceFile}
    {files : List TreeEntry} {name : String} :
    name ∈ packageNames (goFiles record files) ↔ name ≠ documentationPackage ∧
      ∃ entry ∈ files, isGo entry = true ∧
        ∃ file, record entry = .ok file ∧ file.packageName = name := by
  simp only [mem_packageNames_iff, mem_goFiles_iff]
  constructor
  · rintro ⟨file, ⟨entry, hentry, hgo, hrecord⟩, rfl, hname⟩
    exact ⟨hname, entry, hentry, hgo, file, hrecord, rfl⟩
  · rintro ⟨hname, entry, hentry, hgo, file, hrecord, rfl⟩
    exact ⟨file, ⟨entry, hentry, hgo, hrecord⟩, rfl, hname⟩

/-- There is no name to choose when none is declared. -/
theorem selectName_eq_none_iff {dir : Path} {files : List SourceFile} :
    selectName dir files = .ok none ↔ ∀ name, name ∉ packageNames files := by
  simp only [selectName, ← StringSet.mem_toList, ← List.eq_nil_iff_forall_not_mem]
  split
  · rename_i hnil
    exact iff_of_true rfl hnil
  · rename_i name hsingle
    exact iff_of_false nofun (by simp [hsingle])
  · rename_i hnil _
    refine iff_of_false ?_ hnil
    split <;> nofun

/-- A name is chosen when it is declared, and it is the only one or the one that the directory
suggests. -/
theorem selectName_eq_some_iff {dir : Path} {files : List SourceFile} {name : String} :
    selectName dir files = .ok (some name) ↔ name ∈ packageNames files ∧
      ((∀ other ∈ packageNames files, other = name) ∨ suggestedName dir = name) := by
  simp only [selectName, ← StringSet.mem_toList]
  split
  · rename_i hnil
    simp [hnil]
  · rename_i only hsingle
    simp only [hsingle, List.mem_singleton, Except.ok.injEq, Option.some.injEq, forall_eq]
    exact ⟨fun h => ⟨h.symm, .inl h⟩, fun h => h.1.symm⟩
  · rename_i hnil hsingle
    split
    · rename_i hsuggested
      have hmem := StringSet.contains_eq_true.mp hsuggested
      simp only [Except.ok.injEq, Option.some.injEq]
      constructor
      · rintro rfl
        exact ⟨hmem, .inr rfl⟩
      · rintro ⟨-, honly | heq⟩
        · exact honly _ hmem
        · exact heq
    · rename_i hsuggested
      refine iff_of_false nofun ?_
      rintro ⟨hmem, honly | rfl⟩
      -- If no other name were declared, the list of names would be a single one.
      · refine hsingle name (StringSet.eq_of_pairwise_of_mem_iff (packageNames files).ascending
          (List.pairwise_singleton _ _) fun other => ?_)
        rw [List.mem_singleton]
        exact ⟨honly other, fun heq => heq ▸ hmem⟩
      · exact hsuggested (StringSet.contains_eq_true.mpr hmem)

/-- The choice fails when several names are declared and not the one that the directory suggests.
The error has the declared names. -/
theorem selectName_eq_error_iff {dir : Path} {files : List SourceFile} {e : DirectoryError} :
    selectName dir files = .error e ↔
      (∃ first ∈ packageNames files, ∃ second ∈ packageNames files, first ≠ second) ∧
        suggestedName dir ∉ packageNames files ∧
        e = .multiplePackages dir (packageNames files).toList := by
  simp only [selectName, ← StringSet.mem_toList]
  split
  · rename_i hnil
    simp [hnil]
  · rename_i only hsingle
    simp [hsingle]
  · rename_i hnil hsingle
    -- The names ascend, so the first two of at least two differ.
    have hseveral : ∃ first ∈ (packageNames files).toList, ∃ second ∈ (packageNames files).toList,
        first ≠ second := by
      have hascending := (packageNames files).ascending
      match hnames : (packageNames files).toList with
      | [] => exact absurd hnames hnil
      | [name] => exact absurd hnames (hsingle name)
      | first :: second :: rest =>
        rw [hnames] at hascending
        have hlt : first < second := (List.pairwise_cons.mp hascending).1 second List.mem_cons_self
        exact ⟨first, by simp, second, by simp, fun heq => String.lt_irrefl first (heq ▸ hlt)⟩
    split
    · rename_i hsuggested
      exact iff_of_false nofun fun h => h.2.1 (StringSet.contains_eq_true.mp hsuggested)
    · rename_i hsuggested
      rw [StringSet.contains_eq_true, ← StringSet.mem_toList] at hsuggested
      rw [Except.error.injEq, and_iff_right hseveral, and_iff_right hsuggested, eq_comm]

/-! ## What remains -/

section Remaining

variable {record : TreeEntry → Except FileError SourceFile} {config : Config} {dir : Path}
  {files entries gone : List TreeEntry} {entry : TreeEntry} {name : String}

theorem mem_remaining : entry ∈ remaining gone files ↔ entry ∈ files ∧ entry ∉ gone := by
  rw [remaining, List.mem_filter, decide_eq_true_eq]

theorem regular_remaining :
    regular (remaining gone entries) = remaining gone (regular entries) := by
  rw [regular, remaining, remaining, regular, List.filter_filter, List.filter_filter]
  simp only [Bool.and_comm]

theorem filterMap_remaining {α : Type} (f : TreeEntry → Option α) :
    (remaining gone files).filterMap f =
      files.filterMap fun entry => if entry ∉ gone then f entry else none := by
  rw [remaining, List.filterMap_filter]
  simp only [decide_eq_true_eq]

/-- Files that are taken away do not change what is known of the directory itself. -/
theorem emptyPackage_remaining (hgone : ∀ entry ∈ gone, entry ∈ regular entries) :
    emptyPackage config dir (remaining gone entries) = emptyPackage config dir entries := by
  have hany : (remaining gone entries).any (fun entry =>
        entry.node.isDirectory && entry.name == "testdata") =
      entries.any fun entry => entry.node.isDirectory && entry.name == "testdata" := by
    rw [remaining, List.any_filter]
    refine congrArg _ (funext fun entry => ?_)
    by_cases hentry : entry ∈ gone
    · have hfile := (List.mem_filter.mp (hgone entry hentry)).2
      simp only [Bool.not_eq_true'] at hfile
      simp [hentry, hfile]
    · simp [hentry]
  funext name
  rw [emptyPackage, emptyPackage, hany]

/-- The reports of a run over the files that remain are those over all files, without the reports
about the files that are gone. -/
theorem filterMap_report?_remaining (run : Run) :
    (remaining gone files).filterMap (run.report? record name) =
      (files.filterMap (run.report? record name)).filter fun report => report.entry ∉ gone := by
  rw [filterMap_remaining, List.filter_filterMap]
  refine List.filterMap_congr fun entry _ => ?_
  rw [Run.report?]
  cases run.error? record name entry with
  | none => simp
  | some e => by_cases hentry : entry ∈ gone <;> simp [hentry, Option.filter_some]

/-- The errors of the files that remain are those of all files, without the errors about those that
are gone. -/
theorem runs_remaining :
    runs record name (remaining gone files) =
      ((reports record name files).filter fun report => report.entry ∉ gone).map Report.error := by
  rw [runs, filterMap_error?, filterMap_error?, filterMap_error?, filterMap_report?_remaining,
    filterMap_report?_remaining, filterMap_report?_remaining, reports, List.filter_append,
    List.filter_append, List.map_append, List.map_append]

/-- Files that are no part of the package can be taken away from its parts. -/
theorem exists_part_remaining_iff (hgone : ∀ entry ∈ gone, part? record name entry = none)
    {p : SourceFile → Prop} :
    (∃ entry ∈ remaining gone files, ∃ file, part? record name entry = some file ∧ p file) ↔
      ∃ entry ∈ files, ∃ file, part? record name entry = some file ∧ p file := by
  constructor
  · rintro ⟨entry, hentry, hpart⟩
    exact ⟨entry, (mem_remaining.mp hentry).1, hpart⟩
  · rintro ⟨entry, hentry, file, hpart, hp⟩
    refine ⟨entry, mem_remaining.mpr ⟨hentry, fun hmem => ?_⟩, file, hpart, hp⟩
    rw [hgone entry hmem] at hpart
    cases hpart

/-- The packages agree in their clean form when the files that remain give the same facts. -/
theorem clean_collected_eq {start : Package} (hstart : ∀ fact, ¬ start.Holds fact)
    (h : ∀ fact, (∃ entry ∈ remaining gone files, ∃ file,
        part? record start.name entry = some file ∧
        file.Gives config.platforms (usesCgo record (remaining gone files)) fact) ↔
      ∃ entry ∈ files, ∃ file, part? record start.name entry = some file ∧
        file.Gives config.platforms (usesCgo record files) fact) :
    (collected record config (remaining gone files) start).1.clean =
      (collected record config files start).1.clean := by
  refine clean_eq_clean ?_ fun fact => ?_
  · rw [collected, collected, identity_foldl_addResult, identity_foldl_addResult]
  · rw [holds_collected hstart, holds_collected hstart, h]

/-- What follows from a name keeps the package and the errors about the files that remain, when
these give the same facts. -/
theorem conclude_remaining {start : String → Package} (hname : (start name).name = name)
    (hstart : ∀ fact, ¬ (start name).Holds fact)
    (hfacts : ∀ fact, (∃ entry ∈ remaining gone files, ∃ file,
        part? record name entry = some file ∧
          file.Gives config.platforms (usesCgo record (remaining gone files)) fact) ↔
      ∃ entry ∈ files, ∃ file, part? record name entry = some file ∧
        file.Gives config.platforms (usesCgo record files) fact) :
    conclude record config (remaining gone files) start (some name) =
      withoutReports gone (reports record name files)
        (conclude record config files start (some name)) := by
  have hclean : (collected record config (remaining gone files) (start name)).1.clean =
      (collected record config files (start name)).1.clean :=
    clean_collected_eq hstart (hname.symm ▸ hfacts)
  rw [conclude, conclude, withoutReports, hclean, runs_remaining]

/-- The errors that follow from the choice of a name are each about a file that it names. -/
theorem IsReading.isReported_conclude (h : IsReading record config dir) (start : String → Package)
    (selected : Option String) :
    IsReported files (conclude record config files start selected).errors
      (reportsOf record files selected) := by
  cases selected with
  | none =>
    have hrun : Results.errors ((files.filter isGo).map record) =
        files.filterMap (Run.unusableGo.error? record "") := errors_goResults
    rw [conclude, hrun]
    exact h.isReported_run "" files .unusableGo
  | some name => exact h.isReported name files

end Remaining

/-! ## The directory -/

section Directory

variable {read : HeaderReader} {config : Config} {tree : FileTree} {dir : Path}
  {entries gone : List TreeEntry} {entry : TreeEntry}

theorem filesIn_eq (h : tree.list dir = .ok entries) : filesIn tree dir = regular entries := by
  rw [filesIn, h]

/-- A directory with files has a listing. -/
theorem exists_list_of_mem_filesIn (h : entry ∈ filesIn tree dir) :
    ∃ entries, tree.list dir = .ok entries := by
  rw [filesIn] at h
  split at h
  · exact ⟨_, ‹_›⟩
  · exact absurd h List.not_mem_nil

/-- Only a directory that cannot be listed fails for that reason. -/
theorem exists_list_of_ofDirectory {outcome : Except DirectoryError Analysis}
    (h : Package.ofDirectory read config tree dir = outcome)
    (hne : ∀ e, outcome ≠ .error (.unlistable dir e)) : ∃ entries, tree.list dir = .ok entries := by
  rw [Package.ofDirectory] at h
  split at h
  · exact absurd h.symm (hne _)
  · exact ⟨_, ‹_›⟩

/-- The files of a listing ascend. -/
theorem pairwise_regular (h : tree.list dir = .ok entries) :
    (regular entries).Pairwise (· < ·) :=
  (FileTree.pairwise_list h).filter _

/-- A file that remains has the record that it had. -/
theorem record_without (h : tree.list dir = .ok entries) (hgone : ∀ entry ∈ gone, entry ∈ entries)
    (hentry : entry ∈ entries) (hremains : entry ∉ gone) :
    record read config (tree.without gone) dir entry = record read config tree dir entry := by
  rw [record, record, readGo, readGo, FileTree.readText_without h hgone hentry hremains]
  simp only [readOther, FileTree.read_without h hgone hentry hremains]

/-- The analysis of a directory is a choice of the package name, and what follows from it. -/
theorem ofDirectory_eq_map_conclude (h : tree.list dir = .ok entries) :
    Package.ofDirectory read config tree dir =
      (selectName dir (goFiles (record read config tree dir) (regular entries))).map
        (conclude (record read config tree dir) config (regular entries)
          (emptyPackage config dir entries)) := by
  rw [Package.ofDirectory, h]
  exact ofEntries_eq_map_conclude read config tree dir entries

/-- An analysis follows from the name that was chosen. -/
theorem exists_selected_of_ofDirectory {analysis : Analysis} (h : tree.list dir = .ok entries)
    (hanalysis : Package.ofDirectory read config tree dir = .ok analysis) :
    ∃ selected, selectName dir (goFiles (record read config tree dir) (regular entries)) =
        .ok selected ∧
      conclude (record read config tree dir) config (regular entries)
        (emptyPackage config dir entries) selected = analysis := by
  rw [ofDirectory_eq_map_conclude h] at hanalysis
  cases hselected : selectName dir (goFiles (record read config tree dir) (regular entries)) with
  | error e =>
    rw [hselected] at hanalysis
    cases hanalysis
  | ok selected =>
    rw [hselected] at hanalysis
    exact ⟨selected, rfl, Except.ok.inj hanalysis⟩

/-- The analysis without some of the files is made from the records that the other files had. -/
theorem ofDirectory_without_eq_map_conclude (h : tree.list dir = .ok entries)
    (hgone : ∀ entry ∈ gone, entry ∈ regular entries) :
    Package.ofDirectory read config (tree.without gone) dir =
      (selectName dir (goFiles (record read config tree dir)
        (remaining gone (regular entries)))).map
        (conclude (record read config tree dir) config (remaining gone (regular entries))
          (emptyPackage config dir entries)) := by
  have hlisted : ∀ entry ∈ gone, entry ∈ entries :=
    fun entry hentry => (List.mem_filter.mp (hgone entry hentry)).1
  have hrecord : ∀ entry ∈ remaining gone (regular entries),
      record read config (tree.without gone) dir entry = record read config tree dir entry := by
    intro entry hentry
    obtain ⟨hregular, hremains⟩ := mem_remaining.mp hentry
    exact record_without h hlisted (List.mem_filter.mp hregular).1 hremains
  have hconclude : conclude (record read config (tree.without gone) dir) config
        (remaining gone (regular entries)) (emptyPackage config dir entries) =
      conclude (record read config tree dir) config (remaining gone (regular entries))
        (emptyPackage config dir entries) :=
    funext (conclude_congr hrecord (emptyPackage config dir entries))
  rw [ofDirectory_eq_map_conclude (FileTree.list_without h hlisted), ← remaining,
    regular_remaining, emptyPackage_remaining hgone, goFiles_congr hrecord, hconclude]

/-- A directory with a package has a listing and a name, from which the package follows. -/
theorem exists_conclude_of_ofDirectory {package : Package} {errors : List FileError}
    (h : Package.ofDirectory read config tree dir = .ok ⟨some package, errors⟩) :
    ∃ entries, tree.list dir = .ok entries ∧
      selectName dir (goFiles (record read config tree dir) (regular entries)) =
        .ok (some package.name) ∧
      conclude (record read config tree dir) config (regular entries)
        (emptyPackage config dir entries) (some package.name) = ⟨some package, errors⟩ := by
  obtain ⟨entries, hlist⟩ := exists_list_of_ofDirectory h nofun
  obtain ⟨selected, hselected, hconclude⟩ := exists_selected_of_ofDirectory hlist h
  cases selected with
  | none => cases hconclude
  | some name =>
    have hname : package.name = name := by
      have hpackage := (Analysis.mk.inj hconclude).1
      split at hpackage
      · rw [← Option.some.inj hpackage, name_clean, name_collected, emptyPackage]
      · cases hpackage
    exact ⟨entries, hlist, hname ▸ hselected, hname ▸ hconclude⟩

end Directory

end Analysis

end GoBuildRules
