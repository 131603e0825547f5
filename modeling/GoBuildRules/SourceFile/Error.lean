import GoBuildRules.Cgo.Directive
import GoBuildRules.FileTree
import GoBuildRules.Header.Error

/-!
# Errors about one file

A file that cannot be used is left out of its package with an error. The other files of the
directory are not affected.
-/

namespace GoBuildRules

/-- Why a file cannot be used. -/
inductive FileFault where
  | unreadable (e : ReadError)
  | header (e : HeaderError)
  | directive (e : DirectiveError)
  | cgoInTest
  | unsupportedExtension
  | packageMismatch (found expected : String)
  deriving DecidableEq, Repr

/-- The reason that a message gives. -/
def FileFault.reason : FileFault → String
  | unreadable e => "failed to read file: " ++ e.message
  | header e => e.message
  | directive e => e.message
  | cgoInTest => "use of cgo in test not supported"
  | unsupportedExtension => "file extension not yet supported"
  | packageMismatch found expected => "found package " ++ found ++ ", expected " ++ expected

/-- An error about the file at a path. -/
structure FileError where
  path : Path
  fault : FileFault
  deriving DecidableEq, Repr

/-- The text of a file error. -/
def FileError.message (e : FileError) : String :=
  e.path.text ++ ": " ++ e.fault.reason

end GoBuildRules
