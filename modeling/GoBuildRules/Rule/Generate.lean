import GoBuildRules.Config
import GoBuildRules.Label
import GoBuildRules.Package.Basic
import GoBuildRules.Rule.Value

/-!
# The rules of a package

A package gets one rule for each of its targets that has something to build: a group of its
`.proto` files, the cgo library, the library, the program, the tests and the external tests, in
this order. Imports become labels of libraries; those that have no label are left out of the rule
and given as errors.
-/

namespace GoBuildRules

/-- Rules, and the errors about imports that were left out of them. -/
structure Generated where
  rules : List Rule := []
  errors : List ResolveError := []
  deriving DecidableEq

namespace Generated

/-- The attributes of a rule under construction, and the errors about its imports. -/
structure Attributes where
  values : List (String × Value)
  errors : List ResolveError := []

/-- Attributes and then further ones. -/
def Attributes.append (a b : Attributes) : Attributes :=
  ⟨a.values ++ b.values, a.errors ++ b.errors⟩

/-- One attribute. -/
def attr (key : String) (value : Value) : Attributes :=
  ⟨[(key, value)], []⟩

/-- The attributes when the condition holds, and none when it does not. -/
def onlyIf (condition : Bool) (attributes : Attributes) : Attributes :=
  if condition then attributes else ⟨[], []⟩

/-- The name of the cgo library of every package. -/
def cgoLibraryName : String := "cgo_default_library"

/-- The name of the group of `.proto` files of every package. -/
def protosName : String := "go_default_library_protos"

/-- The name of the tests of every package. -/
def testName : String := "go_default_test"

/-- The name of the external tests of every package. -/
def externalTestName : String := "go_default_xtest"

/-- The label of another rule of the same package. -/
def ruleLabel (name : String) : Value :=
  .string (":" ++ name)

/-- The attribute that says who may use a rule. -/
def visibility (scope : String) : Attributes :=
  attr "visibility" (.strings ["//visibility:" ++ scope])

/-- The value of strings for platforms, with the labels of conditions for the names of
platforms. -/
def platformValue (config : Config) (ps : PlatformStrings) : Value :=
  .platformStrings
    { generic := ps.generic
      platform := StringMap.ofList <| ps.platform.toList.map fun (name, values) =>
        (config.platformLabelPrefix ++ name, values) }

/-- The label of an import of the package, in its written form. -/
def labelOf (config : Config) (package : Package) (path : String) : Except ResolveError String :=
  (Label.resolve config.goPrefix path package.rel).map Label.text

/-- The dependencies of a target, when it has any. -/
def deps (config : Config) (package : Package) (target : Target) : Attributes :=
  let (labels, errors) := target.imports.map (labelOf config package)
  let labels := labels.clean
  { values := if labels.isEmpty then [] else [("deps", platformValue config labels)]
    errors }

/-- The sources of a target. -/
def srcs (config : Config) (target : Target) : Attributes :=
  attr "srcs" (platformValue config target.sources)

/-- Flags of a target, when it has any. -/
def flags (config : Config) (key : String) (ps : PlatformStrings) : Attributes :=
  onlyIf (!ps.isEmpty) (attr key (platformValue config ps))

/-- The files that tests read, when the package has some. -/
def testData (package : Package) : Attributes :=
  onlyIf package.hasTestdata (attr "data" (.glob ["testdata/**"] []))

/-- A rule with the name and the attributes, when the condition holds. -/
def rule (condition : Bool) (kind name : String) (attributes : List Attributes) : Generated :=
  if condition then
    let all := attributes.foldl Attributes.append (attr "name" (.string name))
    ⟨[Rule.ofValues kind [] all.values], all.errors⟩
  else {}

/-- Whether the package has a cgo library. -/
def hasCgoLibrary (package : Package) : Bool :=
  !package.cgoLibrary.sources.isEmpty

/-- Whether the package has a library. -/
def hasLibrary (package : Package) : Bool :=
  package.library.hasGo || package.cgoLibrary.hasGo

/-- The name of the program: the last element of the path of the package, or the name of its
directory. -/
def commandName (package : Package) : String :=
  let base := String.ofList (package.rel.toList.reverse.takeWhile (· != '/')).reverse
  if base.isEmpty then package.dir.fileName?.getD package.name else base

/-- The attribute for the library that a rule builds on, when the condition holds. -/
def onLibrary (condition : Bool) (name : String) : Attributes :=
  onlyIf condition (attr "library" (ruleLabel name))

/-- The group of the `.proto` files. -/
def protoGroup (package : Package) : Generated :=
  rule (!package.protos.isEmpty) "filegroup" protosName
    [attr "srcs" (.strings package.protos)]

/-- The library of the files that need a C compiler. -/
def cgoLibrary (config : Config) (package : Package) : Generated :=
  let target := package.cgoLibrary
  rule (hasCgoLibrary package) "cgo_library" cgoLibraryName
    [srcs config target, flags config "copts" target.copts,
      flags config "clinkopts" target.clinkopts, deps config package target,
      visibility "private"]

/-- The library of the package, which other packages use. -/
def library (config : Config) (package : Package) : Generated :=
  let target := package.library
  rule (hasLibrary package) "go_library" Label.libraryName
    [onlyIf (!target.sources.isEmpty) (srcs config target),
      onLibrary (hasCgoLibrary package) cgoLibraryName, deps config package target,
      visibility "public"]

/-- The program of the package. -/
def binary (config : Config) (package : Package) : Generated :=
  let target := package.binary
  rule (package.isCommand && (hasLibrary package || target.hasGo)) "go_binary"
    (commandName package)
    [onlyIf target.hasGo ((srcs config target).append (deps config package target)),
      onLibrary (hasLibrary package) Label.libraryName, visibility "public"]

/-- The tests of the package. -/
def test (config : Config) (package : Package) : Generated :=
  let target := package.test
  rule target.hasGo "go_test" testName
    [srcs config target, onLibrary (hasLibrary package) Label.libraryName,
      deps config package target, testData package]

/-- The tests in a package of their own. -/
def externalTest (config : Config) (package : Package) : Generated :=
  let target := package.externalTest
  rule target.hasGo "go_test" externalTestName
    [srcs config target, deps config package target, testData package]

end Generated

/-- The rules of a package, and the errors about imports that have no label. -/
def Package.generate (config : Config) (package : Package) : Generated :=
  let parts := [Generated.protoGroup package, Generated.cgoLibrary config package,
    Generated.library config package, Generated.binary config package,
    Generated.test config package, Generated.externalTest config package]
  ⟨parts.flatMap Generated.rules, parts.flatMap Generated.errors⟩

end GoBuildRules
