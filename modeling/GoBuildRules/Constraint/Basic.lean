import GoBuildRules.Constraint.BuildLine

/-!
# Constraints of a file

A file may be for one system or architecture by its name, and for the platforms on which all its
build lines hold. `Constraints.admits` decides it for the tags of a platform.
-/

namespace GoBuildRules

/-- The conditions under which a file takes part in a build. -/
structure Constraints where
  system : Option String := none
  architecture : Option String := none
  /-- The build lines, in the order of the file. -/
  lines : List String := []
  deriving DecidableEq, Repr

namespace Constraints

/-- Whether there is no condition. -/
def isEmpty (c : Constraints) : Bool :=
  c.system.isNone && c.architecture.isNone && c.lines.isEmpty

/-- Whether all conditions hold where exactly the tags of the set do. -/
def admits (c : Constraints) (tags : TagSet) : Bool :=
  c.system.all tags.contains && c.architecture.all tags.contains &&
    c.lines.all fun line => BuildLine.holds line tags

/-- Without conditions every platform is admitted. -/
theorem admits_of_isEmpty {c : Constraints} (h : c.isEmpty = true) (tags : TagSet) :
    c.admits tags = true := by
  simp only [isEmpty, Bool.and_eq_true, Option.isNone_iff_eq_none, List.isEmpty_iff] at h
  simp [admits, h]

end Constraints

end GoBuildRules
