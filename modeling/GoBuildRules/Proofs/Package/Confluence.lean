import GoBuildRules.Proofs.Package.Facts

/-!
# Additions in any order

A package is made by additions of files, with cleanings in between. The package at the end depends
on nothing but the set of additions: `holds_run` says which facts a run leaves, and by it two runs
with the same additions agree once both are clean (`run_eq_run_of_same_additions`).
-/

namespace GoBuildRules.Package

/-- One call on a package under construction. -/
inductive Step where
  /-- Adds a file, where `cgo` says whether a Go file of the package imports `"C"`. -/
  | add (file : SourceFile) (cgo : Bool)
  | clean
  deriving DecidableEq

/-- The package after a call. A refused addition leaves it as it was. -/
def Step.apply (platforms : PlatformTable) (package : Package) : Step → Package
  | .add file cgo => package.addOrKeep platforms file cgo
  | .clean => package.clean

/-- The package after a sequence of calls. -/
def run (platforms : PlatformTable) (package : Package) (steps : List Step) : Package :=
  steps.foldl (Step.apply platforms) package

/-- The facts that a call gives to the package. -/
def Step.Gives (platforms : PlatformTable) (fact : Fact) : Step → Prop
  | .add file cgo => file.Gives platforms cgo fact
  | .clean => False

variable {platforms : PlatformTable} {package : Package}

/-- One call keeps every fact and adds those that it gives. -/
theorem holds_apply (fact : Fact) (step : Step) :
    (step.apply platforms package).Holds fact ↔ package.Holds fact ∨ step.Gives platforms fact := by
  cases step with
  | add file cgo => exact holds_addOrKeep fact
  | clean =>
    rw [Step.apply, holds_clean, Step.Gives, or_false]

theorem identity_apply (step : Step) :
    (step.apply platforms package).identity = package.identity := by
  cases step with
  | add file cgo => exact identity_addOrKeep
  | clean => exact identity_clean

/-- The facts after a run: those from before it, and those that some call gives. -/
theorem holds_run (fact : Fact) (steps : List Step) :
    (run platforms package steps).Holds fact ↔
      package.Holds fact ∨ ∃ step ∈ steps, step.Gives platforms fact :=
  Fold.foldl_iff (P := fun package => package.Holds fact) (fun _ step => holds_apply fact step)
    steps package

theorem identity_run (steps : List Step) :
    (run platforms package steps).identity = package.identity :=
  Fold.foldl_eq (g := identity) (fun _ step => identity_apply step) steps package

theorem run_append_clean (steps : List Step) :
    run platforms package (steps ++ [.clean]) = (run platforms package steps).clean := by
  rw [run, List.foldl_append]
  rfl

/-- More additions give at least as many facts. -/
theorem exists_gives_of_additions {fact : Fact} {first second : List Step}
    (h : ∀ file cgo, Step.add file cgo ∈ first → Step.add file cgo ∈ second)
    (hgives : ∃ step ∈ first, step.Gives platforms fact) :
    ∃ step ∈ second, step.Gives platforms fact := by
  obtain ⟨step, hstep, hfact⟩ := hgives
  cases step with
  | add file cgo => exact ⟨.add file cgo, h file cgo hstep, hfact⟩
  | clean => exact hfact.elim

/-- **Additions commute, repeat and may be cleaned at any time.** Two sequences of calls with the
same additions, however ordered and repeated, lead to the same package when both end in a cleaning,
also when some of the additions are refused. -/
theorem run_eq_run_of_same_additions (platforms : PlatformTable) (package : Package)
    {first second : List Step}
    (h : ∀ file cgo, Step.add file cgo ∈ first ↔ Step.add file cgo ∈ second) :
    run platforms package (first ++ [.clean]) = run platforms package (second ++ [.clean]) := by
  rw [run_append_clean, run_append_clean]
  refine clean_eq_clean ?_ fun fact => ?_
  · rw [identity_run, identity_run]
  · rw [holds_run, holds_run]
    exact or_congr_right ⟨exists_gives_of_additions fun file cgo => (h file cgo).mp,
      exists_gives_of_additions fun file cgo => (h file cgo).mpr⟩

/-- A file for Linux, one for all platforms, and a test that is refused. -/
def threeFiles : List SourceFile :=
  [SourceFile.ofName (.ofText "d") "a_linux.go", SourceFile.ofName (.ofText "d") "b.go",
    { SourceFile.ofName (.ofText "d") "c_test.go" with isCgo := true }]

theorem run_eq_run_of_same_additions_threeFiles :
    let start : Package := { name := "d", dir := .ofText "d", rel := "d" }
    let first := threeFiles.map fun file => Step.add file true
    let second := .clean :: first.reverse ++ [.clean] ++ first
    (∀ file cgo, Step.add file cgo ∈ first ↔ Step.add file cgo ∈ second) ∧
      run Target.twoSystems start (first ++ [.clean]) =
        run Target.twoSystems start (second ++ [.clean]) := by
  intro start first second
  have h : ∀ file cgo, Step.add file cgo ∈ first ↔ Step.add file cgo ∈ second := by
    intro file cgo
    simp [second]
  exact ⟨h, run_eq_run_of_same_additions Target.twoSystems start h⟩

end GoBuildRules.Package
