import GoBuildRules.Cgo.Directive
import GoBuildRules.Constraint.BuildLine
import GoBuildRules.Platform
import GoBuildRules.Results
import GoBuildRules.Text.Split

/-!
# Strings for platforms

A list of strings for all platforms, with further strings for single platforms: the file names,
imports or flags of a target. Additions go to the ends of the lists. `PlatformStrings.clean` brings
the lists into the form that depends on their members alone: ascending, without repetition, and
without a string at a platform that stands for all of them.
-/

namespace GoBuildRules

/-- Strings for all platforms, and further ones by the names of platforms. -/
structure PlatformStrings where
  generic : List String := []
  platform : StringMap (List String) := ∅
  deriving DecidableEq

namespace PlatformStrings

instance : Inhabited PlatformStrings := ⟨{}⟩

/-- Adds strings for all platforms. -/
def addGeneric (ps : PlatformStrings) (values : List String) : PlatformStrings :=
  { ps with generic := ps.generic ++ values }

/-- Adds strings for one platform, which gets a list even when there are none to add. -/
def addPlatform (ps : PlatformStrings) (name : String) (values : List String) : PlatformStrings :=
  { ps with platform := ps.platform.alter name fun old => old.getD [] ++ values }

/-- Adds the flags of a file for the platform with the given tags: all but those whose own tags do
not hold there. -/
def addTaggedOpts (ps : PlatformStrings) (name : String) (tags : TagSet) (opts : List TaggedOpt) :
    PlatformStrings :=
  let apply := opts.filter fun opt => !opt.isTagged || BuildLine.holds opt.tags tags
  apply.foldl (fun ps opt => ps.addPlatform name [opt.opts]) ps

/-- Adds one flag of a file for all platforms: for all of them when it has no tags, and else for
those on which its tags hold. -/
def addGenericOpt (platforms : PlatformTable) (ps : PlatformStrings) (opt : TaggedOpt) :
    PlatformStrings :=
  if opt.isTagged then
    platforms.toList.foldl
      (fun ps (name, tags) =>
        if BuildLine.holds opt.tags tags then ps.addPlatform name [opt.opts] else ps)
      ps
  else ps.addGeneric [opt.opts]

/-- Adds the flags of a file for all platforms. -/
def addGenericOpts (ps : PlatformStrings) (platforms : PlatformTable) (opts : List TaggedOpt) :
    PlatformStrings :=
  opts.foldl (addGenericOpt platforms) ps

/-- The strings that stand for one platform, less those that stand for all. -/
def cleanPlatform (generic values : List String) : List String :=
  (StringSet.ofList (values.filter fun value => !generic.contains value)).toList

/-- The form that depends on the members of the lists alone. -/
def clean (ps : PlatformStrings) : PlatformStrings where
  generic := (StringSet.ofList ps.generic).toList
  platform := (ps.platform.mapValues (cleanPlatform ps.generic)).filterValues (!·.isEmpty)

/-- All strings: those for all platforms, then those of the platforms in order. -/
def toList (ps : PlatformStrings) : List String :=
  ps.generic ++ ps.platform.values.flatten

/-- Applies `f` to every string and leaves out those on which `f` fails. The errors are those of the
strings for all platforms and then those of the platforms in order. -/
def map {ε : Type} (f : String → Except ε String) (ps : PlatformStrings) :
    PlatformStrings × List ε :=
  ({ generic := Results.values (ps.generic.map f)
     platform := ps.platform.mapValues fun values => Results.values (values.map f) },
    Results.errors (ps.toList.map f))

/-- Whether all lists are empty. -/
def isEmpty (ps : PlatformStrings) : Bool :=
  ps.generic.isEmpty && ps.platform.values.all List.isEmpty

/-- The first name of a Go file. -/
def firstGoFile? (ps : PlatformStrings) : Option String :=
  ps.toList.find? (Text.endsWith ".go")

/-- Whether there is a name of a Go file. -/
def hasGo (ps : PlatformStrings) : Bool :=
  ps.firstGoFile?.isSome

/-- A name of a Go file is found exactly when one is there. -/
theorem hasGo_eq_true_iff {ps : PlatformStrings} :
    ps.hasGo = true ↔ ∃ name ∈ ps.toList, Text.endsWith ".go" name = true := by
  simp [hasGo, firstGoFile?, List.find?_isSome]

end PlatformStrings

end GoBuildRules
