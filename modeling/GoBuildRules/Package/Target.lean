import GoBuildRules.PlatformStrings
import GoBuildRules.SourceFile.Basic

/-!
# Targets

A target is what one rule builds: sources, imports and flags, each for all platforms or for some.
-/

namespace GoBuildRules

/-- The sources, imports and flags of one rule. -/
structure Target where
  sources : PlatformStrings := {}
  imports : PlatformStrings := {}
  copts : PlatformStrings := {}
  clinkopts : PlatformStrings := {}
  deriving DecidableEq

namespace Target

instance : Inhabited Target := ⟨{}⟩

/-- Adds a file for one platform. -/
def addForPlatform (target : Target) (name : String) (tags : TagSet) (file : SourceFile) :
    Target where
  sources := target.sources.addPlatform name [file.name]
  imports := target.imports.addPlatform name file.imports
  copts := target.copts.addTaggedOpts name tags file.copts
  clinkopts := target.clinkopts.addTaggedOpts name tags file.clinkopts

/-- Adds a file for all platforms. -/
def addForAll (target : Target) (platforms : PlatformTable) (file : SourceFile) : Target where
  sources := target.sources.addGeneric [file.name]
  imports := target.imports.addGeneric file.imports
  copts := target.copts.addGenericOpts platforms file.copts
  clinkopts := target.clinkopts.addGenericOpts platforms file.clinkopts

/-- Adds a file: for all platforms when it has no constraints, and else for those that its
constraints admit. -/
def add (target : Target) (platforms : PlatformTable) (file : SourceFile) : Target :=
  if file.constraints.isEmpty then target.addForAll platforms file
  else
    (platforms.toList.filter fun (_, tags) => file.constraints.admits tags).foldl
      (fun target (name, tags) => target.addForPlatform name tags file) target

/-- The target with all its lists clean. -/
def clean (target : Target) : Target where
  sources := target.sources.clean
  imports := target.imports.clean
  copts := target.copts.clean
  clinkopts := target.clinkopts.clean

/-- Whether a source is a Go file. -/
def hasGo (target : Target) : Bool :=
  target.sources.hasGo

end Target

end GoBuildRules
