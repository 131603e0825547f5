import Mathlib.Data.List.Count
import GoBuildRules.Proofs.Package.Outcome

/-!
# One file of a directory

What the errors of a directory say of one of its files. The names of two files can read alike, so a
name does not tell which file an error is about. The errors are therefore taken together with the
files that they are about (`Report`, `IsReported`). Where no other file has the name
(`HasOwnName`), the errors that name the file are those about it (`IsReported.errorsAbout_eq`).

* `IsReading.isReported`, `about_reports`: the errors about a file are those that it has in the
  three runs.
* `outcome_cases`: a file has one error, or it holds documentation only, or it is a part.
-/

namespace GoBuildRules

open Package

namespace Analysis

/-- An error, and the file that it is about. -/
structure Report where
  entry : TreeEntry
  error : FileError
  deriving DecidableEq

/-- The reports are the errors in their order, each about a file that it names. -/
structure IsReported (files : List TreeEntry) (errors : List FileError) (reports : List Report) :
    Prop where
  errors_eq : errors = reports.map Report.error
  mem : ∀ report ∈ reports, report.entry ∈ files
  names : ∀ report ∈ reports, report.error.path.fileName? = some report.entry.name

/-- The errors about the file. -/
def about (reports : List Report) (entry : TreeEntry) : List FileError :=
  (reports.filter fun report => report.entry = entry).map Report.error

/-- The errors that name a file by the name. -/
def errorsAbout (errors : List FileError) (name : String) : List FileError :=
  errors.filter fun e => e.path.fileName? = some name

/-- The name of the file is its own: it reads like that of no other file. -/
def HasOwnName (files : List TreeEntry) (entry : TreeEntry) : Prop :=
  ∀ other ∈ files, other.name = entry.name → other = entry

/-! ## The errors of one file -/

section Errors

variable {files : List TreeEntry} {entry : TreeEntry} {errors : List FileError}
  {reports : List Report}

theorem IsReported.append {errors' : List FileError} {reports' : List Report}
    (h : IsReported files errors reports) (h' : IsReported files errors' reports') :
    IsReported files (errors ++ errors') (reports ++ reports') := by
  refine ⟨?_, fun report hmem => ?_, fun report hmem => ?_⟩
  · rw [List.map_append, h.errors_eq, h'.errors_eq]
  · exact (List.mem_append.mp hmem).elim (h.mem report) (h'.mem report)
  · exact (List.mem_append.mp hmem).elim (h.names report) (h'.names report)

/-- The errors that name a file are those about it, when its name is its own. -/
theorem IsReported.errorsAbout_eq (h : IsReported files errors reports)
    (hown : HasOwnName files entry) : errorsAbout errors entry.name = about reports entry := by
  rw [errorsAbout, h.errors_eq, List.filter_map, about]
  refine congrArg _ (List.filter_congr fun report hreport => decide_eq_decide.mpr ?_)
  -- Only one file has the name, so the error that has it is about this file.
  rw [h.names report hreport, Option.some.injEq]
  exact ⟨hown report.entry (h.mem report hreport), fun heq => heq ▸ rfl⟩

theorem about_append (first second : List Report) (entry : TreeEntry) :
    about (first ++ second) entry = about first entry ++ about second entry := by
  rw [about, List.filter_append, List.map_append, about, about]

/-- Of a run over the files one file has what it gives to the run. -/
theorem about_filterMap (g : TreeEntry → Option FileError) (hnodup : files.Nodup)
    (hentry : entry ∈ files) :
    about (files.filterMap fun file => (g file).map (Report.mk file)) entry =
      (g entry).toList := by
  have hfilter : about (files.filterMap fun file => (g file).map (Report.mk file)) entry =
      (files.filter fun file => file = entry).filterMap g := by
    rw [about, List.filter_filterMap, List.map_filterMap, List.filterMap_filter]
    refine List.filterMap_congr fun file _ => ?_
    cases g file <;> by_cases hfile : file = entry <;> simp [hfile]
  -- The files are distinct, so the file is met once.
  have honly : (files.filter fun file => file = entry) = [entry] := by
    rw [List.filter_eq, List.count_eq_one_of_mem hnodup hentry, List.replicate_one]
  rw [hfilter, honly, List.filterMap_cons]
  cases g entry <;> rfl

end Errors

/-! ## The runs of one file -/

section Runs

variable {record : TreeEntry → Except FileError SourceFile} {entry : TreeEntry} {e : FileError}
  {name : String} {run : Run}

/-- What an error in a run says. -/
def Run.IsError (record : TreeEntry → Except FileError SourceFile) (name : String) (run : Run)
    (entry : TreeEntry) (e : FileError) : Prop :=
  match run with
  | unusableGo => isGo entry = true ∧ record entry = .error e
  | otherPackage => isGo entry = true ∧ ∃ file, record entry = .ok file ∧
      file.packageName ≠ documentationPackage ∧ file.packageName ≠ name ∧
      e = ⟨file.path, .packageMismatch file.packageName name⟩
  | unusableOther => isGo entry = false ∧ record entry = .error e

theorem error?_eq_some_iff {ε α : Type} {r : Except ε α} {e : ε} :
    Results.error? r = some e ↔ r = .error e := by
  cases r <;> simp [Results.error?]

theorem member?_eq_some_error_iff {file : SourceFile} :
    member? name file = some (.error e) ↔
      file.packageName ≠ documentationPackage ∧ file.packageName ≠ name ∧
        e = ⟨file.path, .packageMismatch file.packageName name⟩ := by
  rw [member?]
  split
  · rename_i hdocumentation
    simp [hdocumentation]
  · rename_i hdocumentation
    split
    · rename_i hname
      simp [hname]
    · rename_i hname
      simp [hdocumentation, hname, eq_comm]

theorem Run.error?_eq_some_iff :
    run.error? record name entry = some e ↔ run.IsError record name entry e := by
  cases run with
  | unusableGo =>
    rw [Run.error?, Run.IsError, Option.ite_none_right_eq_some, Analysis.error?_eq_some_iff]
  | otherPackage =>
    rw [Run.error?, Run.IsError, Option.ite_none_right_eq_some]
    simp only [Option.bind_eq_some_iff, Analysis.error?_eq_some_iff, toOption_eq_some_iff,
      exists_eq_right, member?_eq_some_error_iff]
  | unusableOther =>
    rw [Run.error?, Run.IsError, Option.ite_none_left_eq_some, Analysis.error?_eq_some_iff,
      Bool.not_eq_true]

/-- The errors that a file has in the three runs. -/
def faults (record : TreeEntry → Except FileError SourceFile) (name : String)
    (entry : TreeEntry) : List FileError :=
  (Run.unusableGo.error? record name entry).toList ++
    (Run.otherPackage.error? record name entry).toList ++
    (Run.unusableOther.error? record name entry).toList

/-- The error about a file in a run, with the file. -/
def Run.report? (record : TreeEntry → Except FileError SourceFile) (name : String) (run : Run)
    (entry : TreeEntry) : Option Report :=
  (run.error? record name entry).map (Report.mk entry)

/-- The errors about the files, each with its file, one run after the other. -/
def reports (record : TreeEntry → Except FileError SourceFile) (name : String)
    (files : List TreeEntry) : List Report :=
  files.filterMap (Run.unusableGo.report? record name) ++
    files.filterMap (Run.otherPackage.report? record name) ++
    files.filterMap (Run.unusableOther.report? record name)

theorem filterMap_error? (run : Run) (files : List TreeEntry) :
    files.filterMap (run.error? record name) =
      (files.filterMap (run.report? record name)).map Report.error := by
  rw [List.map_filterMap]
  refine List.filterMap_congr fun entry _ => ?_
  rw [Run.report?]
  cases run.error? record name entry <;> rfl

/-- The errors about a file are those that it has in the runs. -/
theorem about_reports {files : List TreeEntry} (hnodup : files.Nodup) (hentry : entry ∈ files) :
    about (reports record name files) entry = faults record name entry := by
  have hrun : ∀ run : Run, about (files.filterMap (run.report? record name)) entry =
      (run.error? record name entry).toList := fun _ => about_filterMap _ hnodup hentry
  rw [reports, about_append, about_append, hrun, hrun, hrun, faults]

/-- A file without a record has the error instead of it in one of the runs. -/
theorem faults_of_error (hrecord : record entry = .error e) : faults record name entry = [e] := by
  cases hgo : isGo entry <;>
    simp [faults, Run.error?, hgo, hrecord, Results.error?, Except.toOption]

/-- A Go file of another package has the error that says so. -/
theorem faults_of_mismatch {file : SourceFile} (hgo : isGo entry = true)
    (hrecord : record entry = .ok file) (hdocumentation : file.packageName ≠ documentationPackage)
    (hname : file.packageName ≠ name) :
    faults record name entry = [⟨file.path, .packageMismatch file.packageName name⟩] := by
  have hmember : member? name file =
      some (.error ⟨file.path, .packageMismatch file.packageName name⟩) :=
    member?_eq_some_error_iff.mpr ⟨hdocumentation, hname, rfl⟩
  simp [faults, Run.error?, hgo, hrecord, Results.error?, Except.toOption, hmember]

/-- A file has one error, or it holds documentation only, or it is a part of the package. -/
theorem outcome_cases (record : TreeEntry → Except FileError SourceFile) (name : String)
    (entry : TreeEntry) :
    (∃ e, faults record name entry = [e]) ∧ part? record name entry = none ∨
      (faults record name entry = [] ∧ part? record name entry = none ∧ isGo entry = true ∧
        ∃ file, record entry = .ok file ∧ file.packageName = documentationPackage) ∨
      faults record name entry = [] ∧
        ∃ file, record entry = .ok file ∧ part? record name entry = some file := by
  -- First whether there is a record, then whether the file is a Go file, then its package.
  cases hrecord : record entry with
  | error e =>
    refine .inl ⟨⟨e, faults_of_error hrecord⟩, ?_⟩
    simp [part?, hrecord, Except.toOption]
  | ok file =>
    cases hgo : isGo entry with
    | false =>
      refine .inr (.inr ⟨?_, file, rfl, part?_eq_some_iff.mpr ⟨hrecord, by simp [hgo]⟩⟩)
      simp [faults, Run.error?, hgo, hrecord, Results.error?]
    | true =>
      by_cases hdocumentation : file.packageName = documentationPackage
      · refine .inr (.inl ⟨?_, ?_, rfl, file, rfl, hdocumentation⟩)
        · simp [faults, Run.error?, hgo, hrecord, Results.error?, Except.toOption, member?,
            hdocumentation]
        · simp [part?, hgo, hrecord, Except.toOption, member?, hdocumentation]
      · by_cases hname : file.packageName = name
        · refine .inr (.inr ⟨?_, file, rfl,
            part?_eq_some_iff.mpr ⟨hrecord, fun _ => ⟨hdocumentation, hname⟩⟩⟩)
          have hmember : member? name file = some (.ok file) :=
            member?_eq_some_ok_iff.mpr ⟨rfl, hdocumentation, hname⟩
          simp [faults, Run.error?, hgo, hrecord, Results.error?, Except.toOption, hmember]
        · refine .inl ⟨⟨_, faults_of_mismatch hgo hrecord hdocumentation hname⟩, ?_⟩
          have hmember : member? name file =
              some (.error ⟨file.path, .packageMismatch file.packageName name⟩) :=
            member?_eq_some_error_iff.mpr ⟨hdocumentation, hname, rfl⟩
          simp [part?, hgo, hrecord, Except.toOption, hmember]

end Runs

/-! ## Readings -/

section Reading

variable {record : TreeEntry → Except FileError SourceFile} {config : Config} {dir : Path}
  {files : List TreeEntry} {entry : TreeEntry} {name : String} {run : Run} {e : FileError}
  (h : IsReading record config dir)

include h

/-- The error of a file in a run names it. -/
theorem IsReading.fileName?_of_isError (he : run.IsError record name entry e) :
    e.path.fileName? = some entry.name := by
  cases run with
  | unusableGo => exact h.fileName?_eq he.2
  | otherPackage =>
    obtain ⟨hgo, file, hrecord, -, -, rfl⟩ := he
    have hname : entry.name ≠ "" := by
      intro hempty
      rw [isGo, hempty] at hgo
      exact absurd hgo (by decide)
    rw [(h.isRecord hrecord).path_eq]
    exact Path.fileName?_join dir (TreeEntry.isName_name hname)
  | unusableOther => exact h.fileName?_eq he.2

/-- The reports of a run are its errors, each about a file that it names. -/
theorem IsReading.isReported_run (name : String) (files : List TreeEntry) (run : Run) :
    IsReported files (files.filterMap (run.error? record name))
      (files.filterMap (run.report? record name)) := by
  have hreport : ∀ report ∈ files.filterMap (run.report? record name),
      report.entry ∈ files ∧ run.IsError record name report.entry report.error := by
    intro report hmem
    obtain ⟨entry, hentry, hsome⟩ := List.mem_filterMap.mp hmem
    obtain ⟨e, he, rfl⟩ := Option.map_eq_some_iff.mp hsome
    exact ⟨hentry, Run.error?_eq_some_iff.mp he⟩
  exact ⟨filterMap_error? run files, fun report hmem => (hreport report hmem).1,
    fun report hmem => h.fileName?_of_isError (hreport report hmem).2⟩

/-- The reports of all runs are the errors, each about a file that it names. -/
theorem IsReading.isReported (name : String) (files : List TreeEntry) :
    IsReported files (runs record name files) (reports record name files) := by
  have hrun := h.isReported_run name files
  exact ((hrun .unusableGo).append (hrun .otherPackage)).append (hrun .unusableOther)

end Reading

end Analysis

end GoBuildRules
