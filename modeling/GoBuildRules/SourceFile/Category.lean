/-!
# Categories of files

The category of a file follows from its extension alone, and decides what part the file can have in
a build.
-/

namespace GoBuildRules

/-- What part a file can have in a build. -/
inductive FileCategory where
  | go
  /-- Go assembly. -/
  | asm
  /-- A header of C or C++. -/
  | header
  /-- A source of C or C++. -/
  | c
  /-- Assembly that the C compiler takes. -/
  | cAsm
  | proto
  /-- No part of any build. -/
  | ignored
  /-- A source that the generated rules cannot build. -/
  | unsupported
  deriving DecidableEq, Repr

namespace FileCategory

/-- The category of files with the extension, which includes its dot. -/
def ofExtension (extension : String) : FileCategory :=
  if extension = ".go" then go
  else if [".c", ".cc", ".cpp", ".cxx"].contains extension then c
  else if [".h", ".hh", ".hpp", ".hxx"].contains extension then header
  else if extension = ".s" then asm
  else if extension = ".S" then cAsm
  else if extension = ".proto" then proto
  else if [".m", ".f", ".F", ".for", ".f90", ".swig", ".swigcxx", ".syso"].contains extension then
    unsupported
  else ignored

/-- Whether the comments at the top of such files can hold build lines. -/
def hasBuildLines : FileCategory → Bool
  | go | asm | header | c | cAsm | proto => true
  | ignored | unsupported => false

end FileCategory

end GoBuildRules
