import GoBuildRules.Package.Basic

/-!
# Packages of directories

Reads the files of a directory of a file tree and makes the package of them (`Package.ofDirectory`).
A file that cannot be used is left out with an error; the directory itself fails when it cannot be
listed and when its files declare several packages of which none is named as the directory.

The errors come in three runs, each in the order of the file names: Go files that cannot be read,
Go files of other packages, and all other files.
-/

namespace GoBuildRules

/-- Why a directory has no package and no list of errors. -/
inductive DirectoryError where
  | unlistable (dir : Path) (e : ReadError)
  | multiplePackages (dir : Path) (names : List String)
  deriving DecidableEq, Repr

/-- The text of a directory error. -/
def DirectoryError.message : DirectoryError → String
  | unlistable dir e => "failed to list directory " ++ dir.text ++ ": " ++ e.message
  | multiplePackages dir names =>
    "found packages " ++ ", ".intercalate names ++ " in " ++ dir.text

/-- What became of a directory: its package, unless it has no Go file that can be used, and the
errors about the files that were left out. -/
structure Analysis where
  package : Option Package
  errors : List FileError
  deriving DecidableEq

namespace Analysis

/-- The package name of files that only hold documentation. They are in no package. -/
def documentationPackage : String := "documentation"

/-- The record of a Go file of a tree. -/
def readGo (read : HeaderReader) (config : Config) (tree : FileTree) (dir : Path)
    (entry : TreeEntry) : Except FileError SourceFile :=
  match tree.readText entry.path with
  | .error e => .error ⟨entry.path, .unreadable e⟩
  | .ok content => SourceFile.ofGo read config dir entry.name content

/-- The record of another file of a tree. Only a file that can hold build lines is read, and its
bytes need not be UTF-8. -/
def readOther (config : Config) (tree : FileTree) (dir : Path) (entry : TreeEntry) :
    Except FileError SourceFile :=
  let category := FileCategory.ofExtension (SourceFile.splitExtension entry.name).2
  if category.hasBuildLines then
    match tree.read entry.path with
    | .error e => .error ⟨entry.path, .unreadable e⟩
    | .ok content => SourceFile.ofOther config dir entry.name (some (Utf8.lossyText content))
  else SourceFile.ofOther config dir entry.name none

/-- The packages that the files declare, apart from documentation. -/
def packageNames (files : List SourceFile) : StringSet :=
  StringSet.ofList <|
    (files.map SourceFile.packageName).filter (· != documentationPackage)

/-- The package name that a directory suggests: its own, with `_` for each `-`. -/
def suggestedName (dir : Path) : String :=
  String.ofList <|
    ((dir.fileName?.getD "").toList).map fun c => if c = '-' then '_' else c

/-- The one package that the files declare, or of several the one that the directory suggests. -/
def selectName (dir : Path) (files : List SourceFile) :
    Except DirectoryError (Option String) :=
  let names := packageNames files
  match names.toList with
  | [] => .ok none
  | [name] => .ok (some name)
  | several =>
    if names.contains (suggestedName dir) then .ok (some (suggestedName dir))
    else .error (.multiplePackages dir several)

/-- A package under construction, and the errors so far. -/
abbrev Progress := Package × List FileError

/-- Adds a file, or the error about it. -/
def Progress.addResult (platforms : PlatformTable) (cgo : Bool) (progress : Progress) :
    Except FileError SourceFile → Progress
  | .error e => (progress.1, progress.2 ++ [e])
  | .ok file =>
    match progress.1.add platforms file cgo with
    | .error e => (progress.1, progress.2 ++ [e])
    | .ok package => (package, progress.2)

/-- The Go file as a part of the package `name`: none for documentation, and an error when it
declares another package. -/
def member? (name : String) (file : SourceFile) : Option (Except FileError SourceFile) :=
  if file.packageName = documentationPackage then none
  else if file.packageName = name then some (.ok file)
  else some (.error ⟨file.path, .packageMismatch file.packageName name⟩)

/-- The package `name` of the Go files and the results for the other files. -/
def assemble (config : Config) (dir : Path) (name : String) (hasTestdata : Bool)
    (goFiles : List SourceFile) (others : List (Except FileError SourceFile)) : Progress :=
  let cgo := goFiles.any SourceFile.isCgo
  let start : Package := { name, dir, rel := Path.relativeTo config.repoRoot dir, hasTestdata }
  let results := goFiles.filterMap (member? name) ++ others
  let (package, errors) := results.foldl (Progress.addResult config.platforms cgo) (start, [])
  (package.clean, errors)

/-- What becomes of the entries of a directory. -/
def ofEntries (read : HeaderReader) (config : Config) (tree : FileTree) (dir : Path)
    (entries : List TreeEntry) : Except DirectoryError Analysis :=
  let hasTestdata := entries.any fun entry => entry.node.isDirectory && entry.name == "testdata"
  let files := entries.filter fun entry => !entry.node.isDirectory
  let (goEntries, otherEntries) := files.partition fun entry => Text.endsWith ".go" entry.name
  let goResults := goEntries.map (readGo read config tree dir)
  let goFiles := Results.values goResults
  let goErrors := Results.errors goResults
  match selectName dir goFiles with
  | .error e => .error e
  | .ok none => .ok ⟨none, goErrors⟩
  | .ok (some name) =>
    let others := otherEntries.map (readOther config tree dir)
    let (package, errors) := assemble config dir name hasTestdata goFiles others
    .ok ⟨if package.hasGo then some package else none, goErrors ++ errors⟩

end Analysis

/-- What becomes of a directory of a file tree, where `read` finds the headers of Go files. -/
def Package.ofDirectory (read : HeaderReader) (config : Config) (tree : FileTree) (dir : Path) :
    Except DirectoryError Analysis :=
  match tree.list dir with
  | .error e => .error (.unlistable dir e)
  | .ok entries => Analysis.ofEntries read config tree dir entries

end GoBuildRules
