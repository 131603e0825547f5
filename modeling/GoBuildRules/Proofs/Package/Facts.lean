import GoBuildRules.Package.Basic
import GoBuildRules.Proofs.Target.Aggregation

/-!
# The facts that a package holds

A package is read through its facts (`Package.Fact`): which strings a part of a target holds for
all platforms and on each one, which `.proto` files there are, and whether there is a generated
file.

* `holds_addOrKeep`: adding a file keeps every fact and adds those that the file gives
  (`SourceFile.Gives`); a file that is refused or passed over gives none.
* `holds_clean`: cleaning changes no fact.
* `clean_eq_clean`: packages of one directory with the same facts have the same clean form.
-/

namespace GoBuildRules

namespace Package

/-- The targets of a package, by what they are built into. -/
inductive Role where
  | library
  | cgoLibrary
  | binary
  | test
  | externalTest
  deriving DecidableEq, Repr

/-- The target of a role. -/
def Role.target : Role → Package → Target
  | library, package => package.library
  | cgoLibrary, package => package.cgoLibrary
  | binary, package => package.binary
  | test, package => package.test
  | externalTest, package => package.externalTest

/-- The target at a place, where the place is one. -/
def Place.role? : Place → Option Role
  | library => some .library
  | cgoLibrary => some .cgoLibrary
  | test => some .test
  | externalTest => some .externalTest
  | protos | nowhere => none

/-- Something that the lists of a package can say. -/
inductive Fact where
  /-- A part of a target holds a string for all platforms. -/
  | everywhere (role : Role) (part : Target.Part) (s : String)
  /-- A part of a target holds a string on one platform. -/
  | onPlatform (role : Role) (part : Target.Part) (name s : String)
  | proto (s : String)
  | generatedProto

/-- Whether the lists of the package say so. -/
def Holds (package : Package) : Fact → Prop
  | .everywhere role part s => s ∈ (part.strings (role.target package)).generic
  | .onPlatform role part name s => s ∈ (part.strings (role.target package)).effective name
  | .proto s => s ∈ package.protos
  | .generatedProto => package.hasGeneratedProto = true

/-- What no file changes. -/
def identity (package : Package) : String × Path × String × Bool :=
  (package.name, package.dir, package.rel, package.hasTestdata)

end Package

open Package

namespace SourceFile

/-- Whether a package takes the file: it is neither ignored nor unsupported, and no test that
imports `"C"`. -/
def IsTaken (file : SourceFile) : Prop :=
  ¬ (file.category = .ignored ∨ file.category = .unsupported) ∧
    ¬ ((file.isExternalTest || file.isTest) && file.isCgo) = true

/-- The facts that the file gives to a package at a place. -/
def GivesAt (platforms : PlatformTable) (file : SourceFile) (place : Place) : Fact → Prop
  | .everywhere role part s => place.role? = some role ∧ part.GivenAlways file s
  | .onPlatform role part name s => place.role? = some role ∧
      (part.GivenAlways file s ∨
        ∃ tags, platforms.get? name = some tags ∧ part.GivenOn tags file s)
  | .proto s => place = .protos ∧ file.name = s
  | .generatedProto => Text.endsWith ".pb.go" file.name = true

/-- The facts that the file gives to a package, where `cgo` says whether a Go file of the package
imports `"C"`. -/
def Gives (platforms : PlatformTable) (file : SourceFile) (cgo : Bool) (fact : Fact) : Prop :=
  file.IsTaken ∧ file.GivesAt platforms (placeOf file cgo) fact

end SourceFile

namespace Package

variable {package : Package} {platforms : PlatformTable} {file : SourceFile} {cgo : Bool}

/-! ## Additions -/

theorem target_addAt (role : Role) (place : Place) :
    role.target (package.addAt platforms file place) =
      if place.role? = some role then (role.target package).add platforms file
      else role.target package := by
  cases place <;> cases role <;> rfl

theorem protos_addAt (place : Place) :
    (package.addAt platforms file place).protos =
      if place = .protos then package.protos ++ [file.name] else package.protos := by
  cases place <;> rfl

theorem hasGeneratedProto_addAt (place : Place) :
    (package.addAt platforms file place).hasGeneratedProto = package.hasGeneratedProto := by
  cases place <;> rfl

theorem identity_addAt (place : Place) :
    (package.addAt platforms file place).identity = package.identity := by
  cases place <;> rfl

/-- The package with a file at its place. -/
def added (package : Package) (platforms : PlatformTable) (file : SourceFile) (cgo : Bool) :
    Package :=
  let added := package.addAt platforms file (placeOf file cgo)
  { added with
    hasGeneratedProto := added.hasGeneratedProto || Text.endsWith ".pb.go" file.name }

/-- A file that is taken is put at its place. -/
theorem add_of_isTaken (h : file.IsTaken) :
    package.add platforms file cgo = .ok (package.added platforms file cgo) := by
  rw [add, if_neg h.1, if_neg h.2, added]

/-- The package after an addition; a file that is refused leaves it as it was. -/
def addOrKeep (package : Package) (platforms : PlatformTable) (file : SourceFile) (cgo : Bool) :
    Package :=
  match package.add platforms file cgo with
  | .ok after => after
  | .error _ => package

/-- Only a test that imports `"C"` is refused. -/
theorem add_of_not_refused
    (h : ¬ ((file.isExternalTest || file.isTest) && file.isCgo) = true) :
    package.add platforms file cgo = .ok (package.addOrKeep platforms file cgo) := by
  rw [addOrKeep]
  cases hadd : package.add platforms file cgo with
  | ok after => rfl
  | error e =>
    rw [add, if_neg h] at hadd
    split at hadd <;> cases hadd

theorem addOrKeep_of_isTaken (h : file.IsTaken) :
    package.addOrKeep platforms file cgo = package.added platforms file cgo := by
  rw [addOrKeep, add_of_isTaken h]

theorem addOrKeep_of_not_isTaken (h : ¬ file.IsTaken) :
    package.addOrKeep platforms file cgo = package := by
  rw [addOrKeep, add]
  split
  · rename_i after hadd
    split at hadd
    · exact (Except.ok.inj hadd).symm
    · rename_i hcategory
      split at hadd
      · cases hadd
      · rename_i hcgo
        exact absurd ⟨hcategory, hcgo⟩ h
  · rfl

theorem target_added (role : Role) :
    role.target (package.added platforms file cgo) =
      role.target (package.addAt platforms file (placeOf file cgo)) := by
  cases role <;> rfl

theorem holds_added (fact : Fact) :
    (package.added platforms file cgo).Holds fact ↔
      package.Holds fact ∨ file.GivesAt platforms (placeOf file cgo) fact := by
  -- A file changes the target of its place and the lists beside the targets, and nothing else.
  cases fact with
  | everywhere role part s =>
    rw [Holds, Holds, SourceFile.GivesAt, target_added, target_addAt]
    split <;> rename_i hplace
    · rw [Target.mem_generic_add]
      simp [hplace]
    · simp [hplace]
  | onPlatform role part name s =>
    rw [Holds, Holds, SourceFile.GivesAt, target_added, target_addAt]
    split <;> rename_i hplace
    · rw [Target.mem_effective_add]
      simp [hplace]
    · simp [hplace]
  | proto s =>
    have hprotos : (package.added platforms file cgo).protos =
        (package.addAt platforms file (placeOf file cgo)).protos := rfl
    rw [Holds, Holds, SourceFile.GivesAt, hprotos, protos_addAt]
    split <;> rename_i hplace
    · simp [hplace, eq_comm]
    · simp [hplace]
  | generatedProto =>
    rw [Holds, Holds, SourceFile.GivesAt, added, hasGeneratedProto_addAt, Bool.or_eq_true]

/-- Adding a file keeps every fact and adds those that the file gives. -/
theorem holds_addOrKeep (fact : Fact) :
    (package.addOrKeep platforms file cgo).Holds fact ↔
      package.Holds fact ∨ file.Gives platforms cgo fact := by
  by_cases h : file.IsTaken
  · rw [addOrKeep_of_isTaken h, holds_added, SourceFile.Gives, and_iff_right h]
  · rw [addOrKeep_of_not_isTaken h, SourceFile.Gives]
    simp [h]

theorem identity_addOrKeep :
    (package.addOrKeep platforms file cgo).identity = package.identity := by
  by_cases h : file.IsTaken
  · rw [addOrKeep_of_isTaken h]
    exact identity_addAt _
  · rw [addOrKeep_of_not_isTaken h]

/-! ## The clean form -/

theorem target_clean (role : Role) : role.target package.clean = (role.target package).clean := by
  cases role <;> rfl

/-- Cleaning changes no fact. -/
theorem holds_clean (fact : Fact) : package.clean.Holds fact ↔ package.Holds fact := by
  cases fact with
  | everywhere role part s =>
    rw [Holds, Holds, target_clean, Target.strings_clean, PlatformStrings.mem_generic_clean]
  | onPlatform role part name s =>
    rw [Holds, Holds, target_clean, Target.strings_clean, PlatformStrings.mem_effective_clean]
  | proto s => rw [Holds, Holds, clean, StringSet.mem_toList, StringSet.mem_ofList]
  | generatedProto => rfl

theorem identity_clean : package.clean.identity = package.identity := rfl

/-- Targets with the same facts have the same clean form. -/
theorem target_clean_eq {a b : Package} (h : ∀ fact, a.Holds fact ↔ b.Holds fact) (role : Role) :
    (role.target a).clean = (role.target b).clean :=
  Target.clean_eq_clean_of_parts fun part => PlatformStrings.clean_eq_clean_iff.mpr
    ⟨fun s => h (.everywhere role part s), fun name s => h (.onPlatform role part name s)⟩

/-- Packages of one directory with the same facts have the same clean form. -/
theorem clean_eq_clean {a b : Package} (hidentity : a.identity = b.identity)
    (h : ∀ fact, a.Holds fact ↔ b.Holds fact) : a.clean = b.clean := by
  have htargets := target_clean_eq h
  have hprotos : StringSet.ofList a.protos = StringSet.ofList b.protos :=
    StringSet.ext_mem fun s => by
      rw [StringSet.mem_ofList, StringSet.mem_ofList]
      exact h (.proto s)
  simp only [identity, Prod.mk.injEq] at hidentity
  obtain ⟨hname, hdir, hrel, htestdata⟩ := hidentity
  rw [clean, clean, Package.mk.injEq]
  exact ⟨hname, hdir, hrel, htargets .library, htargets .cgoLibrary, htargets .binary,
    htargets .test, htargets .externalTest, by rw [hprotos],
    Bool.eq_iff_iff.mpr (h .generatedProto), htestdata⟩

end Package

end GoBuildRules
