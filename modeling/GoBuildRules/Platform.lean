import GoBuildRules.StringMap
import GoBuildRules.StringSet

/-!
# Platforms

A platform is a name with the set of build tags that hold on it. The operating systems and
architectures below are the ones that file names and build tags may refer to, and the standard
table has one platform `<system>_<architecture>` for each supported pair.
-/

namespace GoBuildRules

/-- The build tags that hold on a platform. -/
abbrev TagSet := StringSet

/-- The platforms by their names. -/
abbrev PlatformTable := StringMap TagSet

namespace Platform

/-- The operating systems. -/
def systems : List String :=
  ["android", "darwin", "dragonfly", "freebsd", "linux", "nacl", "netbsd", "openbsd", "plan9",
   "solaris", "windows", "zos"]

/-- The architectures. -/
def architectures : List String :=
  ["386", "amd64", "amd64p32", "arm", "armbe", "arm64", "arm64be", "ppc64", "ppc64le", "mips",
   "mipsle", "mips64", "mips64le", "mips64p32", "mips64p32le", "ppc", "s390", "s390x", "sparc",
   "sparc64"]

/-- Whether `s` names an operating system. -/
def isSystem (s : String) : Bool :=
  systems.contains s

/-- Whether `s` names an architecture. -/
def isArchitecture (s : String) : Bool :=
  architectures.contains s

/-- The pairs of a system and an architecture that the standard table holds. -/
def standardPairs : List (String × String) :=
  [("android", "386"), ("android", "amd64"), ("android", "arm"), ("android", "arm64"),
   ("darwin", "386"), ("darwin", "amd64"), ("darwin", "arm"), ("darwin", "arm64"),
   ("dragonfly", "amd64"),
   ("freebsd", "386"), ("freebsd", "amd64"), ("freebsd", "arm"),
   ("linux", "386"), ("linux", "amd64"), ("linux", "arm"), ("linux", "arm64"), ("linux", "mips"),
   ("linux", "mips64"), ("linux", "mips64le"), ("linux", "mipsle"), ("linux", "ppc64"),
   ("linux", "ppc64le"), ("linux", "s390x"),
   ("nacl", "386"), ("nacl", "amd64p32"), ("nacl", "arm"),
   ("netbsd", "386"), ("netbsd", "amd64"), ("netbsd", "arm"),
   ("openbsd", "386"), ("openbsd", "amd64"), ("openbsd", "arm"),
   ("plan9", "386"), ("plan9", "amd64"),
   ("solaris", "amd64"),
   ("windows", "386"), ("windows", "amd64")]

/-- The tags of a standard platform: its system and its architecture. Android is a Linux too. -/
def standardTags (system architecture : String) : List String :=
  if system = "android" then [system, architecture, "linux"] else [system, architecture]

/-- No system is also an architecture, so a token of a file name has one reading. -/
theorem isArchitecture_eq_false_of_isSystem {s : String} (h : isSystem s = true) :
    isArchitecture s = false := by
  have hs : s ∈ systems := List.contains_iff_mem.mp h
  simp only [systems, List.mem_cons, List.not_mem_nil, or_false] at hs
  rcases hs with rfl | rfl | rfl | rfl | rfl | rfl | rfl | rfl | rfl | rfl | rfl | rfl <;> decide

end Platform

namespace PlatformTable

/-- The table of the given platforms; of several with one name the last counts. -/
def ofList (platforms : List (String × List String)) : PlatformTable :=
  StringMap.ofList (platforms.map fun (name, tags) => (name, StringSet.ofList tags))

/-- The standard table. -/
def standard : PlatformTable :=
  ofList <| Platform.standardPairs.map fun (system, architecture) =>
    (system ++ "_" ++ architecture, Platform.standardTags system architecture)

end PlatformTable

end GoBuildRules
