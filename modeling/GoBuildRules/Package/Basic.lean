import GoBuildRules.Package.Target

/-!
# Packages

The files of one directory that make up a Go package, divided among the targets that build them.
`Package.add` puts a file where it belongs, `Package.clean` makes the result independent of the
order in which the files came.
-/

namespace GoBuildRules

/-- The package of one directory. -/
structure Package where
  /-- The declared name, without the `_test` of external tests. -/
  name : String
  dir : Path
  /-- The path from the repository root, with slashes; empty for the root itself. -/
  rel : String
  library : Target := {}
  cgoLibrary : Target := {}
  binary : Target := {}
  test : Target := {}
  externalTest : Target := {}
  protos : List String := []
  /-- Whether a Go file that was generated from a `.proto` file is among the files. -/
  hasGeneratedProto : Bool := false
  hasTestdata : Bool := false
  deriving DecidableEq

namespace Package

/-- Where a file of a package belongs. -/
inductive Place where
  | library
  | cgoLibrary
  | test
  | externalTest
  | protos
  /-- The file belongs to the package and to none of its targets. -/
  | nowhere
  deriving DecidableEq, Repr

/-- The place of a file that is neither ignored nor unsupported, where `cgo` says whether a Go file
of the package imports `"C"`. -/
def placeOf (file : SourceFile) (cgo : Bool) : Place :=
  if file.isExternalTest then .externalTest
  else if file.isTest then .test
  else
    match file.category, cgo with
    | .c, true | .header, true | .cAsm, true => .cgoLibrary
    | category, _ =>
      if file.isCgo then .cgoLibrary
      else
        match category with
        | .go | .asm | .header => .library
        | .proto => .protos
        | _ => .nowhere

/-- Puts a file at a place of the package. -/
def addAt (package : Package) (platforms : PlatformTable) (file : SourceFile) : Place → Package
  | .library => { package with library := package.library.add platforms file }
  | .cgoLibrary => { package with cgoLibrary := package.cgoLibrary.add platforms file }
  | .test => { package with test := package.test.add platforms file }
  | .externalTest => { package with externalTest := package.externalTest.add platforms file }
  | .protos => { package with protos := package.protos ++ [file.name] }
  | .nowhere => package

/-- Adds a file to the package. Ignored and unsupported files change nothing, and a test that
imports `"C"` is refused. -/
def add (package : Package) (platforms : PlatformTable) (file : SourceFile) (cgo : Bool) :
    Except FileError Package :=
  if file.category = .ignored ∨ file.category = .unsupported then .ok package
  else if (file.isExternalTest || file.isTest) && file.isCgo then
    .error ⟨file.path, .cgoInTest⟩
  else
    let added := package.addAt platforms file (placeOf file cgo)
    .ok { added with
      hasGeneratedProto := added.hasGeneratedProto || Text.endsWith ".pb.go" file.name }

/-- The package with every list clean. -/
def clean (package : Package) : Package :=
  { package with
    library := package.library.clean
    cgoLibrary := package.cgoLibrary.clean
    binary := package.binary.clean
    test := package.test.clean
    externalTest := package.externalTest.clean
    protos := (StringSet.ofList package.protos).toList }

/-- Whether the package is a program. -/
def isCommand (package : Package) : Bool :=
  package.name == "main"

/-- The targets, in the order in which a Go file is looked for. -/
def targets (package : Package) : List Target :=
  [package.library, package.cgoLibrary, package.binary, package.test, package.externalTest]

/-- The first source that is a Go file. -/
def firstGoFile? (package : Package) : Option String :=
  package.targets.findSome? fun target => target.sources.firstGoFile?

/-- Whether some target has a source that is a Go file. -/
def hasGo (package : Package) : Bool :=
  package.firstGoFile?.isSome

end Package

end GoBuildRules
