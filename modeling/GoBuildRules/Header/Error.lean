/-!
# Errors in a file header

Why the header of a source file could not be read. Each error names the line of what it is about:
the token that stands where another was expected, or the start of the comment or literal that does
not end or is malformed.
-/

namespace GoBuildRules

/-- Why a header could not be read. -/
inductive HeaderError where
  | expectedPackage (line : Nat) (found : String)
  | expectedPackageName (line : Nat) (found : String)
  | expectedImportPath (line : Nat) (found : String)
  | unterminatedComment (line : Nat)
  | unterminatedString (line : Nat)
  | unknownEscape (line : Nat) (escape : Char)
  deriving DecidableEq, Repr

namespace HeaderError

/-- The line that the error is about. -/
def line : HeaderError → Nat
  | expectedPackage line _ => line
  | expectedPackageName line _ => line
  | expectedImportPath line _ => line
  | unterminatedComment line => line
  | unterminatedString line => line
  | unknownEscape line _ => line

/-- What is wrong, without the line. -/
def reason : HeaderError → String
  | expectedPackage _ found => "expected 'package', found " ++ found
  | expectedPackageName _ found => "expected package name, found " ++ found
  | expectedImportPath _ found => "expected import path, found " ++ found
  | unterminatedComment _ => "comment not terminated"
  | unterminatedString _ => "string literal not terminated"
  | unknownEscape _ escape => "unknown escape sequence \\" ++ String.ofList [escape]

/-- The text of a header error. -/
def message (e : HeaderError) : String :=
  toString e.line ++ ": " ++ e.reason

end HeaderError

end GoBuildRules
