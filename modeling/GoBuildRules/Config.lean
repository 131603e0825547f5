import GoBuildRules.Path
import GoBuildRules.Platform
import GoBuildRules.Text.Blank
import GoBuildRules.Text.Quoted
import GoBuildRules.Text.Split

/-!
# Configuration

The values that the analysis of every directory shares: where the repository is, which import path
stands for its root, the platforms, the extensions to pass over, and how the conditions of
generated rules are labelled. `Config.ofSettings` takes what a user has set and fills in the rest.
-/

namespace GoBuildRules

/-- The values that every analysis shares. -/
structure Config where
  /-- The import path of the repository root. Imports below it are local. -/
  goPrefix : String
  /-- The directory from which the paths of packages are counted. -/
  repoRoot : Path
  /-- The platforms for which constraints are decided. -/
  platforms : PlatformTable := PlatformTable.standard
  /-- The unsupported extensions that are passed over without an error. -/
  ignoredExtensions : List String := []
  /-- What stands before the name of a platform in the label of a condition. -/
  platformLabelPrefix : String := "@io_bazel_rules_go//go/platform:"

/-- What is wrong with a configuration. -/
inductive ConfigError where
  | noPlatforms
  | invalidPrefix (goPrefix : String)
  | relativeRoot (repoRoot : Path)
  deriving DecidableEq, Repr

/-- The text of a configuration error. -/
def ConfigError.message : ConfigError → String
  | noPlatforms => "Platform table is empty"
  | invalidPrefix goPrefix =>
    "Invalid go prefix " ++ Text.quoted goPrefix ++ ": must not start or end with '/'"
  | relativeRoot repoRoot => "Repository root must be an absolute path: " ++ repoRoot.text

/-- What a user may set, as text. -/
structure Settings where
  goPrefix : Option String := none
  repoRoot : Option String := none
  /-- Extensions between commas; the dot in front may be missing. -/
  ignoredExtensions : Option String := none
  deriving DecidableEq, Repr

namespace Config

/-- Whether files with the extension are passed over. -/
def ignores (config : Config) (extension : String) : Bool :=
  config.ignoredExtensions.contains extension

/-- The first thing that is wrong with a configuration, if anything is. -/
def fault? (config : Config) : Option ConfigError :=
  if config.platforms.isEmpty then some .noPlatforms
  else if Text.startsWith "/" config.goPrefix || Text.endsWith "/" config.goPrefix then
    some (.invalidPrefix config.goPrefix)
  else if !config.repoRoot.isAbsolute then some (.relativeRoot config.repoRoot)
  else none

/-- The extensions between the commas of a text, each with a dot in front. -/
def extensionsOf (text : String) : List String :=
  let parts := (text.toList.splitOn ',').map Text.trim
  (parts.filter fun part => !part.isEmpty).map fun part =>
    String.ofList (if part.head? = some '.' then part else '.' :: part)

/-- The configuration that a user has set, in the working directory unless a root is set. -/
def ofSettings (settings : Settings) (workingDirectory : Path) : Config where
  goPrefix := settings.goPrefix.getD ""
  repoRoot := (settings.repoRoot.map Path.ofText).getD workingDirectory
  ignoredExtensions := (settings.ignoredExtensions.map extensionsOf).getD []

end Config

end GoBuildRules
