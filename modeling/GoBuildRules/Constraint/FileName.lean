import GoBuildRules.Platform
import GoBuildRules.Text.Split

/-!
# What a file name says

The stem of a file name is cut into tokens at `_`. A last token `test` marks a test; before it, the
last tokens may name the system, the architecture, or the system and then the architecture that
the file is for. The first token of a stem is never read this way: `linux.go` is a file for every
system.
-/

namespace GoBuildRules

/-- The test mark and the platform that a file name carries. -/
structure NameParts where
  isTest : Bool := false
  system : Option String := none
  architecture : Option String := none
  deriving DecidableEq, Repr

namespace NameParts

/-- The tokens in reverse, without a last token `test`, and whether there was one. -/
def dropTest : List String → Bool × List String
  | [] => (false, [])
  | [token] => (false, [token])
  | last :: before :: rest =>
    if last = "test" then (true, before :: rest) else (false, last :: before :: rest)

/-- The system and the architecture that the last tokens name; the tokens are in reverse. -/
def platformOf : List String → Option String × Option String
  | last :: before :: rest =>
    if !rest.isEmpty && Platform.isSystem before && Platform.isArchitecture last then
      (some before, some last)
    else if Platform.isSystem last then (some last, none)
    else if Platform.isArchitecture last then (none, some last)
    else (none, none)
  | _ => (none, none)

/-- What the stem of a file name says. -/
def ofStem (stem : String) : NameParts :=
  let (isTest, tokens) := dropTest (Text.splitAt '_' stem).reverse
  let (system, architecture) := platformOf tokens
  { isTest, system, architecture }

/-- A stem without `_` says nothing. -/
theorem ofStem_of_not_mem {stem : String} (h : '_' ∉ stem.toList) : ofStem stem = {} := by
  have : Text.splitAt '_' stem = [stem] := by
    simp [Text.splitAt, List.splitOn_eq_singleton h]
  simp [ofStem, this, dropTest, platformOf]

end NameParts

end GoBuildRules
