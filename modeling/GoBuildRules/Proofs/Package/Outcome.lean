import GoBuildRules.Package.Directory
import GoBuildRules.Proofs.FileTree.Listing
import GoBuildRules.Proofs.SourceFile.Record

/-!
# What becomes of the files of a directory

The analysis of a directory passes over its files several times. Here it is read file by file: a
file has a record or an error instead (`Analysis.record`), it can have an error in one of three runs
(`Run.error?`), and it can be a part of the package (`part?`).

* `ofEntries_eq_map_conclude`: an analysis is a choice of the package name, and what follows from
  it for the files one by one.
* `isAnalysis_of_ofEntries`: the errors are the three runs, and the facts of the package are those
  that its parts give.
-/

namespace GoBuildRules

open Package

namespace Analysis

/-- Whether the name of the entry is that of a Go file. -/
def isGo (entry : TreeEntry) : Bool :=
  Text.endsWith ".go" entry.name

/-- The entries that are no directories. -/
def regular (entries : List TreeEntry) : List TreeEntry :=
  entries.filter fun entry => !entry.node.isDirectory

/-- The record of a file of a tree, or the error instead of it. -/
def record (read : HeaderReader) (config : Config) (tree : FileTree) (dir : Path)
    (entry : TreeEntry) : Except FileError SourceFile :=
  if isGo entry then readGo read config tree dir entry else readOther config tree dir entry

/-! ## Records of entries -/

section Record

variable {read : HeaderReader} {config : Config} {tree : FileTree} {dir : Path} {entry : TreeEntry}
  {file : SourceFile} {e : FileError}

theorem exists_ofGo_of_record (hgo : isGo entry = true)
    (h : record read config tree dir entry = .ok file) :
    ∃ content, tree.readText entry.path = .ok content ∧
      SourceFile.ofGo read config dir entry.name content = .ok file := by
  rw [record, if_pos hgo, readGo] at h
  split at h
  · cases h
  · rename_i content hcontent
    exact ⟨content, hcontent, h⟩

theorem exists_ofOther_of_record (hgo : isGo entry = false)
    (h : record read config tree dir entry = .ok file) :
    ∃ content, SourceFile.ofOther config dir entry.name content = .ok file := by
  rw [record, hgo, if_neg Bool.false_ne_true] at h
  simp only [readOther] at h
  split at h
  · split at h
    · cases h
    · exact ⟨_, h⟩
  · exact ⟨none, h⟩

theorem isRecord_of_record (h : record read config tree dir entry = .ok file) :
    file.IsRecord config dir entry.name := by
  cases hgo : isGo entry with
  | true =>
    obtain ⟨content, -, hread⟩ := exists_ofGo_of_record hgo h
    exact SourceFile.isRecord_of_ofGo hgo hread
  | false =>
    obtain ⟨content, hread⟩ := exists_ofOther_of_record hgo h
    exact SourceFile.isRecord_of_ofOther hread

/-- An error instead of a record names the file by its path in the tree or in the directory. -/
theorem path_of_record (h : record read config tree dir entry = .error e) :
    e.path = entry.path ∨ e.path = dir.join (.ofText entry.name) := by
  rw [record] at h
  split at h
  · rw [readGo] at h
    split at h
    · exact .inl (by rw [← Except.error.inj h])
    · exact .inr (SourceFile.path_of_ofGo h)
  · simp only [readOther] at h
    split at h
    · split at h
      · exact .inl (by rw [← Except.error.inj h])
      · exact .inr (SourceFile.path_of_ofOther h).1
    · exact .inr (SourceFile.path_of_ofOther h).1

/-- A file without a name is passed over. -/
theorem name_ne_empty_of_record (h : record read config tree dir entry = .error e) :
    entry.name ≠ "" := by
  intro hempty
  have hgo : isGo entry = false := by
    rw [isGo, hempty]
    decide
  have hcategory :
      FileCategory.ofExtension (SourceFile.splitExtension entry.name).2 = .ignored := by
    rw [hempty]
    decide
  rw [record, hgo, if_neg Bool.false_ne_true] at h
  simp only [readOther, hcategory] at h
  have hunsupported := (SourceFile.path_of_ofOther h).2
  rw [SourceFile.categoryOf, hcategory] at hunsupported
  cases hunsupported

theorem fileName?_of_record (h : record read config tree dir entry = .error e) :
    e.path.fileName? = some entry.name := by
  have hname := name_ne_empty_of_record h
  rcases path_of_record h with hpath | hpath
  · rw [hpath, TreeEntry.fileName?_eq_some_name hname]
  · rw [hpath, Path.fileName?_join dir (TreeEntry.isName_name hname)]

end Record

/-- What holds of every way to read the files of a directory: records are those of the files, and
errors name them. -/
structure IsReading (record : TreeEntry → Except FileError SourceFile) (config : Config)
    (dir : Path) : Prop where
  isRecord : ∀ {entry file}, record entry = .ok file → file.IsRecord config dir entry.name
  fileName?_eq : ∀ {entry e}, record entry = .error e → e.path.fileName? = some entry.name

theorem isReading_record (read : HeaderReader) (config : Config) (tree : FileTree) (dir : Path) :
    IsReading (record read config tree dir) config dir :=
  ⟨isRecord_of_record, fileName?_of_record⟩

/-! ## Errors and parts -/

/-- The runs in which the errors come. -/
inductive Run where
  /-- Go files that have no record. -/
  | unusableGo
  /-- Go files that declare another package. -/
  | otherPackage
  /-- Other files that have no record. -/
  | unusableOther
  deriving DecidableEq, Repr

variable (record : TreeEntry → Except FileError SourceFile) (name : String)

/-- The error about a file in a run, if there is one; `name` is that of the package. -/
def Run.error? : Run → TreeEntry → Option FileError
  | unusableGo, entry => if isGo entry then Results.error? (record entry) else none
  | otherPackage, entry =>
    if isGo entry then
      (record entry).toOption.bind fun file => (member? name file).bind Results.error?
    else none
  | unusableOther, entry => if isGo entry then none else Results.error? (record entry)

/-- The errors about the files, one run after the other. -/
def runs (files : List TreeEntry) : List FileError :=
  files.filterMap (Run.unusableGo.error? record name) ++
    files.filterMap (Run.otherPackage.error? record name) ++
    files.filterMap (Run.unusableOther.error? record name)

/-- The file as a part of the package `name`, if it is one. -/
def part? (entry : TreeEntry) : Option SourceFile :=
  if isGo entry then
    (record entry).toOption.bind fun file => (member? name file).bind Except.toOption
  else (record entry).toOption

/-- The Go files that have a record. -/
def goFiles (files : List TreeEntry) : List SourceFile :=
  Results.values ((files.filter isGo).map record)

/-- Whether a Go file that has a record imports `"C"`. -/
def usesCgo (files : List TreeEntry) : Bool :=
  (goFiles record files).any SourceFile.isCgo

/-- The results that are added to the package, those of the Go files first. -/
def results (files : List TreeEntry) : List (Except FileError SourceFile) :=
  (goFiles record files).filterMap (member? name) ++
    (files.filter fun entry => !isGo entry).map record

variable {record : TreeEntry → Except FileError SourceFile} {name : String}
  {files : List TreeEntry} {file : SourceFile}

theorem member?_eq_some_ok_iff {g : SourceFile} :
    member? name g = some (.ok file) ↔
      g = file ∧ g.packageName ≠ documentationPackage ∧ g.packageName = name := by
  rw [member?]
  split
  · rename_i hdocumentation
    simp [hdocumentation]
  · rename_i hdocumentation
    split
    · rename_i hname
      rw [Option.some.injEq, Except.ok.injEq]
      exact ⟨fun h => ⟨h, hdocumentation, hname⟩, And.left⟩
    · rename_i hname
      simp [hname]

theorem mem_goFiles_iff :
    file ∈ goFiles record files ↔
      ∃ entry ∈ files, isGo entry = true ∧ record entry = .ok file := by
  simp only [goFiles, Results.mem_values_iff, List.mem_map, List.mem_filter, and_assoc]

theorem toOption_eq_some_iff {α ε : Type} {r : Except ε α} {a : α} :
    r.toOption = some a ↔ r = .ok a := by
  cases r <;> simp [Except.toOption]

/-- A part is the record of a file; a Go file is one only when it declares the package. -/
theorem part?_eq_some_iff {entry : TreeEntry} :
    part? record name entry = some file ↔
      record entry = .ok file ∧ (isGo entry = true →
        file.packageName ≠ documentationPackage ∧ file.packageName = name) := by
  rw [part?]
  split
  · rename_i hgo
    simp only [Option.bind_eq_some_iff, toOption_eq_some_iff]
    constructor
    · rintro ⟨g, hg, result, hmember, rfl⟩
      obtain ⟨rfl, hname⟩ := member?_eq_some_ok_iff.mp hmember
      exact ⟨hg, fun _ => hname⟩
    · rintro ⟨hrecord, hname⟩
      exact ⟨file, hrecord, .ok file, member?_eq_some_ok_iff.mpr ⟨rfl, hname hgo⟩, rfl⟩
  · rename_i hgo
    rw [toOption_eq_some_iff]
    exact ⟨fun h => ⟨h, fun h => absurd h hgo⟩, And.left⟩

/-- The records that are added are those of the parts. -/
theorem mem_results_iff :
    .ok file ∈ results record name files ↔
      ∃ entry ∈ files, part? record name entry = some file := by
  simp only [results, List.mem_append, List.mem_filterMap, mem_goFiles_iff, member?_eq_some_ok_iff,
    List.mem_map, List.mem_filter, part?_eq_some_iff]
  constructor
  · rintro (⟨g, ⟨entry, hentry, -, hrecord⟩, rfl, hname⟩ | ⟨entry, ⟨hentry, hgo⟩, hrecord⟩)
    · exact ⟨entry, hentry, hrecord, fun _ => hname⟩
    · exact ⟨entry, hentry, hrecord, fun h => by simp [h] at hgo⟩
  · rintro ⟨entry, hentry, hrecord, hname⟩
    cases hgo : isGo entry with
    | true => exact .inl ⟨file, ⟨entry, hentry, hgo, hrecord⟩, rfl, hname hgo⟩
    | false => exact .inr ⟨entry, ⟨hentry, by simp [hgo]⟩, hrecord⟩

/-- The errors among the results are those of the last two runs. -/
theorem errors_results :
    Results.errors (results record name files) =
      files.filterMap (Run.otherPackage.error? record name) ++
        files.filterMap (Run.unusableOther.error? record name) := by
  rw [Results.errors, results, goFiles, Results.values, List.filterMap_append]
  congr 1
  · rw [List.filterMap_filterMap, List.filterMap_filterMap, List.filterMap_map,
      List.filterMap_filter]
    rfl
  · rw [List.filterMap_map, List.filterMap_filter]
    congr 1
    funext entry
    rw [Run.error?]
    cases isGo entry <;> rfl

/-- The errors about Go files without a record are the first run. -/
theorem errors_goResults :
    Results.errors ((files.filter isGo).map record) =
      files.filterMap (Run.unusableGo.error? record name) := by
  rw [Results.errors, List.filterMap_map, List.filterMap_filter]
  rfl

/-! ## The package of the parts -/

variable {platforms : PlatformTable} {cgo : Bool}

theorem fst_addResult (progress : Progress) (result : Except FileError SourceFile) :
    (progress.addResult platforms cgo result).1 =
      match result with
      | .error _ => progress.1
      | .ok file => progress.1.addOrKeep platforms file cgo := by
  cases result with
  | error e => rfl
  | ok file =>
    simp only [Progress.addResult, addOrKeep]
    cases progress.1.add platforms file cgo <;> rfl

/-- Adding results to a package adds the facts that their records give. -/
theorem holds_foldl_addResult (fact : Fact) (results : List (Except FileError SourceFile))
    (progress : Progress) :
    (results.foldl (Progress.addResult platforms cgo) progress).1.Holds fact ↔
      progress.1.Holds fact ∨ ∃ result ∈ results, ∃ file, result = .ok file ∧
        file.Gives platforms cgo fact := by
  refine Fold.foldl_iff (f := Progress.addResult platforms cgo)
    (P := fun progress => progress.1.Holds fact) (fun progress result => ?_) results progress
  rw [fst_addResult]
  cases result with
  | error e => simp
  | ok file =>
    rw [holds_addOrKeep]
    simp

theorem identity_foldl_addResult (results : List (Except FileError SourceFile))
    (progress : Progress) :
    (results.foldl (Progress.addResult platforms cgo) progress).1.identity =
      progress.1.identity := by
  refine Fold.foldl_eq (f := Progress.addResult platforms cgo)
    (g := fun progress => progress.1.identity) (fun progress result => ?_) results progress
  rw [fst_addResult]
  cases result with
  | error e => rfl
  | ok file => exact identity_addOrKeep

/-- Records that are never refused add no errors. -/
theorem snd_foldl_addResult {results : List (Except FileError SourceFile)}
    (h : ∀ file, .ok file ∈ results →
      ¬ ((file.isExternalTest || file.isTest) && file.isCgo) = true)
    (progress : Progress) :
    (results.foldl (Progress.addResult platforms cgo) progress).2 =
      progress.2 ++ Results.errors results := by
  induction results generalizing progress with
  | nil => simp [Results.errors]
  | cons result rest ih =>
    have hrest : Results.errors (result :: rest) =
        (Results.error? result).toList ++ Results.errors rest := by
      rw [Results.errors, List.filterMap_cons, Results.errors]
      cases Results.error? result <;> rfl
    -- One result adds its own error; a record adds none, since it is not refused.
    have hstep : (progress.addResult platforms cgo result).2 =
        progress.2 ++ (Results.error? result).toList := by
      cases result with
      | error e => rfl
      | ok file =>
        rw [Progress.addResult, add_of_not_refused (h file List.mem_cons_self)]
        exact (List.append_nil _).symm
    rw [List.foldl_cons, ih fun file hfile => h file (.tail _ hfile), hstep, hrest,
      List.append_assoc]

/-- A package under construction holds nothing at first. -/
theorem not_holds_start (name : String) (dir : Path) (rel : String) (hasTestdata : Bool)
    (fact : Fact) :
    ¬ ({ name, dir, rel, hasTestdata : Package } : Package).Holds fact := by
  cases fact with
  | everywhere role part s => cases role <;> cases part <;> exact List.not_mem_nil
  | onPlatform role part name s => cases role <;> cases part <;> exact List.not_mem_nil
  | proto s => exact List.not_mem_nil
  | generatedProto => exact Bool.false_ne_true

/-- The package with all results added, and the errors about them. -/
def collected (record : TreeEntry → Except FileError SourceFile) (config : Config)
    (files : List TreeEntry) (start : Package) : Progress :=
  (results record start.name files).foldl
    (Progress.addResult config.platforms (usesCgo record files)) (start, [])

variable {config : Config} {start : Package}

theorem identity_collected : (collected record config files start).1.identity = start.identity :=
  identity_foldl_addResult (results record start.name files) (start, [])

theorem name_collected : (collected record config files start).1.name = start.name :=
  congrArg Prod.fst identity_collected

theorem holds_collected (hstart : ∀ fact, ¬ start.Holds fact) (fact : Fact) :
    (collected record config files start).1.Holds fact ↔
      ∃ entry ∈ files, ∃ file, part? record start.name entry = some file ∧
        file.Gives config.platforms (usesCgo record files) fact := by
  rw [collected, holds_foldl_addResult, or_iff_right (hstart fact)]
  constructor
  · rintro ⟨_, hresult, file, rfl, hgives⟩
    obtain ⟨entry, hentry, hpart⟩ := mem_results_iff.mp hresult
    exact ⟨entry, hentry, file, hpart, hgives⟩
  · rintro ⟨entry, hentry, file, hpart, hgives⟩
    exact ⟨.ok file, mem_results_iff.mpr ⟨entry, hentry, hpart⟩, file, rfl, hgives⟩

theorem snd_collected
    (hrefused : ∀ entry file, record entry = .ok file →
      ¬ ((file.isExternalTest || file.isTest) && file.isCgo) = true) :
    (collected record config files start).2 =
      files.filterMap (Run.otherPackage.error? record start.name) ++
        files.filterMap (Run.unusableOther.error? record start.name) := by
  have hresults : ∀ file, .ok file ∈ results record start.name files →
      ¬ ((file.isExternalTest || file.isTest) && file.isCgo) = true := by
    intro file hfile
    obtain ⟨entry, -, hpart⟩ := mem_results_iff.mp hfile
    exact hrefused entry file (part?_eq_some_iff.mp hpart).1
  rw [collected, snd_foldl_addResult hresults, List.nil_append, errors_results]

/-! ## The analysis -/

/-- How a package and errors come from the files of a directory, where `record` reads a file. -/
structure IsAnalysis (record : TreeEntry → Except FileError SourceFile) (config : Config)
    (dir : Path) (files : List TreeEntry) (package : Package) (errors : List FileError) : Prop
    extends IsReading record config dir where
  ascending : files.Pairwise (· < ·)
  errors_eq : errors = runs record package.name files
  holds_iff : ∀ fact, package.Holds fact ↔
    ∃ entry ∈ files, ∃ file, part? record package.name entry = some file ∧
      file.Gives config.platforms (usesCgo record files) fact
  clean : ∃ before : Package, package = before.clean

variable {read : HeaderReader} {tree : FileTree} {dir : Path} {entries : List TreeEntry}
  {package : Package} {errors : List FileError}

/-- The package is what has been collected, in its clean form. -/
theorem assemble_eq (config : Config) (dir : Path) (name : String) (hasTestdata : Bool)
    (record : TreeEntry → Except FileError SourceFile) (files : List TreeEntry) :
    assemble config dir name hasTestdata (goFiles record files)
        ((files.filter fun entry => !isGo entry).map record) =
      let progress := collected record config files
        { name, dir, rel := Path.relativeTo config.repoRoot dir, hasTestdata }
      (progress.1.clean, progress.2) := rfl

theorem name_clean (package : Package) : package.clean.name = package.name := rfl

theorem map_readGo (files : List TreeEntry) :
    (files.filter isGo).map (readGo read config tree dir) =
      (files.filter isGo).map (Analysis.record read config tree dir) := by
  refine List.map_congr_left fun entry hentry => ?_
  rw [Analysis.record, if_pos (List.mem_filter.mp hentry).2]

theorem map_readOther (files : List TreeEntry) :
    (files.filter fun entry => !isGo entry).map (readOther config tree dir) =
      (files.filter fun entry => !isGo entry).map (Analysis.record read config tree dir) := by
  refine List.map_congr_left fun entry hentry => ?_
  have hgo : isGo entry = false := by simpa using (List.mem_filter.mp hentry).2
  rw [Analysis.record, hgo, if_neg Bool.false_ne_true]

/-- The analysis of the entries of a directory, by their records. -/
theorem ofEntries_eq (read : HeaderReader) (config : Config) (tree : FileTree) (dir : Path)
    (entries : List TreeEntry) :
    ofEntries read config tree dir entries =
      let record := Analysis.record read config tree dir
      let files := regular entries
      let goErrors := Results.errors ((files.filter isGo).map record)
      let hasTestdata := entries.any fun entry => entry.node.isDirectory && entry.name == "testdata"
      match selectName dir (goFiles record files) with
      | .error e => .error e
      | .ok none => .ok ⟨none, goErrors⟩
      | .ok (some name) =>
        let progress := assemble config dir name hasTestdata (goFiles record files)
          ((files.filter fun entry => !isGo entry).map record)
        .ok ⟨if progress.1.hasGo then some progress.1 else none, goErrors ++ progress.2⟩ := by
  simp only [goFiles, ← map_readGo, ← map_readOther]
  simp only [ofEntries, List.partition_eq_filter_filter]
  rfl

/-- The package of a directory before any of its files is added. -/
def emptyPackage (config : Config) (dir : Path) (entries : List TreeEntry) (name : String) :
    Package :=
  { name, dir, rel := Path.relativeTo config.repoRoot dir
    hasTestdata := entries.any fun entry => entry.node.isDirectory && entry.name == "testdata" }

/-- What follows from the choice of a package name. Without one the other files are not looked
at. -/
def conclude (record : TreeEntry → Except FileError SourceFile) (config : Config)
    (files : List TreeEntry) (start : String → Package) : Option String → Analysis
  | none => ⟨none, Results.errors ((files.filter isGo).map record)⟩
  | some name =>
    let package := (collected record config files (start name)).1.clean
    ⟨if package.hasGo then some package else none, runs record name files⟩

/-- An analysis is a choice of the package name, and what follows from it. -/
theorem ofEntries_eq_map_conclude (read : HeaderReader) (config : Config) (tree : FileTree)
    (dir : Path) (entries : List TreeEntry) :
    ofEntries read config tree dir entries =
      (selectName dir (goFiles (Analysis.record read config tree dir) (regular entries))).map
        (conclude (Analysis.record read config tree dir) config (regular entries)
          (emptyPackage config dir entries)) := by
  have hrefused : ∀ entry file, Analysis.record read config tree dir entry = .ok file →
      ¬ ((file.isExternalTest || file.isTest) && file.isCgo) = true :=
    fun _ _ hrecord => (isRecord_of_record hrecord).not_refused
  rw [ofEntries_eq]
  simp only
  cases selectName dir (goFiles (Analysis.record read config tree dir) (regular entries)) with
  | error e => rfl
  | ok selected =>
    cases selected with
    | none => rfl
    | some name =>
      -- The errors of the Go files without a record are the first run, and refusals add none to it.
      have hgo : Results.errors (((regular entries).filter isGo).map
            (Analysis.record read config tree dir)) = (regular entries).filterMap
            (Run.unusableGo.error? (Analysis.record read config tree dir) name) :=
        errors_goResults
      simp only [assemble_eq, snd_collected hrefused, hgo, ← List.append_assoc]
      rfl

/-- What has been collected, in its clean form, is the package of the files, whether or not it has a
Go source. -/
theorem isAnalysis_collected {record : TreeEntry → Except FileError SourceFile}
    {files : List TreeEntry} (h : IsReading record config dir)
    (hascending : files.Pairwise (· < ·))
    (hstart : ∀ fact, ¬ start.Holds fact) :
    IsAnalysis record config dir files (collected record config files start).1.clean
      (runs record start.name files) := by
  have hname : ((collected record config files start).1.clean).name = start.name := by
    rw [name_clean, name_collected]
  refine ⟨h, hascending, ?_, fun fact => ?_, _, rfl⟩
  · rw [hname]
  · rw [holds_clean, holds_collected hstart, hname]

/-- What follows from a package name comes from the files. -/
theorem isAnalysis_of_conclude {record : TreeEntry → Except FileError SourceFile}
    {files : List TreeEntry} {start : String → Package} {name : String}
    (h : IsReading record config dir)
    (hascending : files.Pairwise (· < ·))
    (hname : (start name).name = name) (hstart : ∀ fact, ¬ (start name).Holds fact)
    (hconclude : conclude record config files start (some name) = ⟨some package, errors⟩) :
    IsAnalysis record config dir files package errors := by
  obtain ⟨hpackage, herrors⟩ := Analysis.mk.inj hconclude
  have hanalysis : IsAnalysis record config dir files
      (collected record config files (start name)).1.clean
      (runs record (start name).name files) := isAnalysis_collected h hascending hstart
  rw [hname, herrors] at hanalysis
  split at hpackage
  · rwa [Option.some.inj hpackage] at hanalysis
  · cases hpackage

/-- The package and the errors of a listing come from its files. -/
theorem isAnalysis_of_ofEntries
    (hascending : entries.Pairwise (· < ·))
    (h : ofEntries read config tree dir entries = .ok ⟨some package, errors⟩) :
    IsAnalysis (Analysis.record read config tree dir) config dir (regular entries) package
      errors := by
  rw [ofEntries_eq_map_conclude] at h
  cases hselected : selectName dir
      (goFiles (Analysis.record read config tree dir) (regular entries)) with
  | error e =>
    rw [hselected] at h
    cases h
  | ok selected =>
    rw [hselected] at h
    have hconclude := Except.ok.inj h
    cases selected with
    | none => cases hconclude
    | some name =>
      exact isAnalysis_of_conclude (isReading_record read config tree dir) (hascending.filter _) rfl
        (not_holds_start _ _ _ _) hconclude

end Analysis

end GoBuildRules
