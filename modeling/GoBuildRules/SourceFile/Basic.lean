import GoBuildRules.Config
import GoBuildRules.Constraint.Basic
import GoBuildRules.Constraint.FileName
import GoBuildRules.Header.Basic
import GoBuildRules.SourceFile.Category
import GoBuildRules.SourceFile.Error

/-!
# Source files

What a build has to know of one file of a package. The name gives the category, the test mark and
the platform (`SourceFile.ofName`); a Go file is read for its package, imports, cgo flags and build
lines (`SourceFile.ofGo`), and any other file for its build lines (`SourceFile.ofOther`).
-/

namespace GoBuildRules

/-- What a build has to know of a file. -/
structure SourceFile where
  name : String
  dir : Path
  path : Path
  /-- The extension with its dot, or nothing. -/
  extension : String
  category : FileCategory
  isTest : Bool
  /-- Whether the file is a test that belongs to a package of its own. -/
  isExternalTest : Bool
  /-- Whether the file imports `"C"`. -/
  isCgo : Bool
  /-- The declared package, without the `_test` of an external test. -/
  packageName : String
  /-- The imported paths that are not in the standard library, in order. -/
  imports : List String
  constraints : Constraints
  copts : List TaggedOpt
  clinkopts : List TaggedOpt
  deriving DecidableEq, Repr

/-- A way to find the header of a source text. -/
abbrev HeaderReader := String → Except HeaderError Header

/-- Whether an import path belongs to the standard library: its first element has no dot, and it
does not lie below the prefix of the repository. -/
def isStandardImport (goPrefix path : String) : Bool :=
  let first := path.toList.takeWhile (· != '/')
  !first.contains '.' && (goPrefix.isEmpty || !Text.startsWith (goPrefix ++ "/") path)

namespace SourceFile

/-- The import path that stands for C. -/
def cgoImport : String := "C"

/-- The part of a file name before its last dot, and the extension from that dot on. -/
def splitExtension (name : String) : String × String :=
  let reversed := name.toList.reverse
  match reversed.dropWhile (· != '.') with
  | [] => (name, "")
  | dot :: stem =>
    (String.ofList stem.reverse,
      String.ofList (dot :: (reversed.takeWhile (· != '.')).reverse))

/-- The stem and the extension are the name. -/
theorem splitExtension_append (name : String) :
    (splitExtension name).1 ++ (splitExtension name).2 = name := by
  simp only [splitExtension]
  split
  · simp
  · rename_i dot stem h
    apply String.toList_inj.mp
    have := congrArg List.reverse (List.takeWhile_append_dropWhile (p := (· != '.'))
      (l := name.toList.reverse))
    rw [h] at this
    simpa using this

/-- What the name of a file in the directory says. -/
def ofName (dir : Path) (name : String) : SourceFile :=
  let (stem, extension) := splitExtension name
  let category := FileCategory.ofExtension extension
  let parts := NameParts.ofStem stem
  { name, dir, path := dir.join (.ofText name), extension, category
    isTest := parts.isTest && category = .go
    isExternalTest := false
    isCgo := false
    packageName := ""
    imports := []
    constraints := { system := parts.system, architecture := parts.architecture }
    copts := []
    clinkopts := [] }

/-- The package name of a test without the ending that makes it external; none for another. -/
def externalPackage? (isTest : Bool) (packageName : String) : Option String :=
  if isTest then Text.dropEnd? "_test" packageName else none

/-- The record of a Go file with the content. A test may not import `"C"`, and the comments above
an import of `"C"` must hold well-formed directives. -/
def ofGo (read : HeaderReader) (config : Config) (dir : Path) (name content : String) :
    Except FileError SourceFile :=
  let file := ofName dir name
  let fail (fault : FileFault) : Except FileError SourceFile := .error ⟨file.path, fault⟩
  match read content with
  | .error e => fail (.header e)
  | .ok header =>
    let (cgo, plain) := header.imports.partition fun spec => spec.path = cgoImport
    if file.isTest && !cgo.isEmpty then fail .cgoInTest
    else
      match (cgo.filterMap ImportSpec.doc).mapM fun doc => CgoFlags.parse doc dir.text with
      | .error e => fail (.directive e)
      | .ok flags =>
        let external := externalPackage? file.isTest header.packageName
        .ok { file with
          isExternalTest := external.isSome
          isCgo := !cgo.isEmpty
          packageName := external.getD header.packageName
          imports := (plain.map ImportSpec.path).filter fun path =>
            !isStandardImport config.goPrefix path
          constraints := { file.constraints with lines := BuildLine.read content }
          copts := flags.flatMap CgoFlags.copts
          clinkopts := flags.flatMap CgoFlags.clinkopts }

/-- The record of a file that is not a Go file. The content, where it is known, is read for build
lines. An unsupported file is an error unless its extension is to be passed over. -/
def ofOther (config : Config) (dir : Path) (name : String) (content : Option String) :
    Except FileError SourceFile :=
  let file := ofName dir name
  match file.category with
  | .ignored => .ok file
  | .unsupported =>
    if config.ignores file.extension then .ok { file with category := .ignored }
    else .error ⟨file.path, .unsupportedExtension⟩
  | _ =>
    let lines := (content.map BuildLine.read).getD []
    .ok { file with constraints := { file.constraints with lines } }

end SourceFile

end GoBuildRules
