import GoBuildRules.Proofs.Constraint.FileName
import GoBuildRules.Proofs.SourceFile.Flags

/-!
# What the record of a Go file says of its header

For a Go file whose header is read there are three outcomes, and the name and the header decide
which one it is. A test that imports `"C"` is an error. Otherwise a malformed directive above an
`import "C"` is one. Otherwise there is a record, which agrees with the name and the header
(`SourceFile.AgreesWith`). A package takes every record without an error.
-/

namespace GoBuildRules

/-- Some import is `"C"`. -/
def Header.ImportsCgo (header : Header) : Prop :=
  ∃ spec ∈ header.imports, spec.path = SourceFile.cgoImport

namespace SourceFile

/-- The record agrees with the header of the Go file with the stem. -/
structure AgreesWith (config : Config) (dir : Path) (stem : String) (header : Header)
    (file : SourceFile) : Prop where
  isTest_iff : file.isTest = true ↔ ∃ base, stem = base ++ "_test"
  isCgo_iff : file.isCgo = true ↔ header.ImportsCgo
  not_isTest_of_isCgo : file.isCgo = true → ¬ file.isTest = true
  /-- External tests are tests, of a package with a name of its own. -/
  isExternalTest_iff : file.isExternalTest = true ↔
    file.isTest = true ∧ ∃ base, header.packageName = base ++ "_test"
  packageName_eq : header.packageName =
    if file.isExternalTest = true then file.packageName ++ "_test" else file.packageName
  imports_eq : file.imports = (header.imports.map ImportSpec.path).filter fun path =>
    path ≠ cgoImport ∧ isStandardImport config.goPrefix path = false
  flags : ∃ flags, cgoFlags dir header = .ok flags ∧
    file.copts = flags.flatMap CgoFlags.copts ∧ file.clinkopts = flags.flatMap CgoFlags.clinkopts

variable {read : HeaderReader} {config : Config} {dir : Path} {name stem content : String}
  {header : Header}

/-! ## Names and imports -/

theorem isTest_ofName_iff :
    (ofName dir (stem ++ ".go")).isTest = true ↔ ∃ base, stem = base ++ "_test" := by
  rw [isTest_ofName_iff_of_isExtension dir (isExtension_go stem), NameParts.isTest_ofStem_iff]
  exact and_iff_right rfl

theorem isEmpty_cgoImports_eq_false_iff :
    (cgoImports header).isEmpty = false ↔ header.ImportsCgo := by
  simp [List.isEmpty_eq_false_iff, cgoImports, List.filter_eq_nil_iff, Header.ImportsCgo]

/-- The flags cannot be read when one of the comments cannot. -/
theorem exists_cgoFlags_eq_error_iff : (∃ e, cgoFlags dir header = .error e) ↔
    ∃ doc, header.IsCgoDoc doc ∧ ∃ e, CgoFlags.parse doc dir.text = .error e := by
  simp only [cgoFlags, Fold.exists_mapM_eq_error_iff, mem_docs_cgoImports_iff]

theorem isSome_externalPackage?_iff {isTest : Bool} {packageName : String} :
    (externalPackage? isTest packageName).isSome = true ↔
      isTest = true ∧ ∃ base, packageName = base ++ "_test" := by
  cases isTest <;>
    simp [externalPackage?, Option.isSome_iff_exists, Text.dropEnd?_eq_some_iff]

/-- A declared name is the name of the package, and `_test` after it where the test is external. -/
theorem eq_getD_externalPackage? (isTest : Bool) (packageName : String) :
    packageName =
      if (externalPackage? isTest packageName).isSome = true then
        (externalPackage? isTest packageName).getD packageName ++ "_test"
      else (externalPackage? isTest packageName).getD packageName := by
  cases hexternal : externalPackage? isTest packageName with
  | none => rfl
  | some base =>
    cases isTest with
    | false => cases hexternal
    | true => exact Text.dropEnd?_eq_some_iff.mp hexternal

/-! ## The three outcomes -/

theorem ofGo_of_cgoInTest (hread : read content = .ok header)
    (htest : (ofName dir name).isTest = true) (hcgo : header.ImportsCgo) :
    ofGo read config dir name content = .error ⟨dir.join (.ofText name), .cgoInTest⟩ := by
  have hempty : (cgoImports header).isEmpty = false := isEmpty_cgoImports_eq_false_iff.mpr hcgo
  simp only [ofGo, hread, List.partition_eq_filter_filter]
  rw [if_pos (Bool.and_eq_true_iff.mpr ⟨htest, by rw [← cgoImports, hempty]; rfl⟩)]
  rfl

section Allowed

variable (hread : read content = .ok header)
  (hallowed : ¬ ((ofName dir name).isTest = true ∧ header.ImportsCgo))
include hread hallowed

theorem ofGo_of_cgoFlags_eq_error {e : DirectiveError} (h : cgoFlags dir header = .error e) :
    ofGo read config dir name content = .error ⟨dir.join (.ofText name), .directive e⟩ := by
  rw [← isEmpty_cgoImports_eq_false_iff] at hallowed
  simp only [ofGo, hread, List.partition_eq_filter_filter]
  rw [if_neg (by simpa [cgoImports] using hallowed), ← cgoImports, ← cgoFlags, h]
  rfl

theorem exists_agreesWith_of_cgoFlags_eq_ok {flags : List CgoFlags} (hname : name = stem ++ ".go")
    (h : cgoFlags dir header = .ok flags) :
    ∃ file, ofGo read config dir name content = .ok file ∧
      file.AgreesWith config dir stem header := by
  subst hname
  have htest : (ofName dir (stem ++ ".go")).isTest = true ↔ ∃ base, stem = base ++ "_test" :=
    isTest_ofName_iff
  have hcgo : (!(cgoImports header).isEmpty) = true ↔ header.ImportsCgo := by
    rw [Bool.not_eq_true', isEmpty_cgoImports_eq_false_iff]
  simp only [ofGo, hread, List.partition_eq_filter_filter]
  -- What the name says is used through `htest` alone, and it is costly to unfold.
  generalize ofName dir (stem ++ ".go") = named at hallowed htest ⊢
  have hnot := hallowed
  rw [← hcgo] at hnot
  rw [if_neg (by simpa [cgoImports] using hnot), ← cgoImports, ← cgoFlags, h]
  refine ⟨_, rfl, ?_⟩
  exact {
    isTest_iff := htest
    isCgo_iff := hcgo
    not_isTest_of_isCgo := fun himports hnamed => hallowed ⟨hnamed, hcgo.mp himports⟩
    isExternalTest_iff := isSome_externalPackage?_iff
    packageName_eq := eq_getD_externalPackage? _ _
    imports_eq := by
      simp [List.filter_map, List.filter_filter, Function.comp_def, Bool.and_comm]
    flags := ⟨flags, h, rfl, rfl⟩ }

end Allowed

/-- **Records agree with the headers and no package refuses them.** Take a Go file whose header is
read, with any content, in any directory. A test that imports `"C"` is an error, whatever stands in
its comments; only such a file is that error. Of the other files those are errors that have a
malformed directive above an import of `"C"`. All that remain have a record, and it agrees with the
name and the header. So adding the record of a file to a package, in any order and on any platforms,
is never an error. -/
theorem records_agree_and_never_refused (read : HeaderReader) (config : Config) (dir : Path) :
    (∀ stem content header, read content = .ok header →
      let outcome := ofGo read config dir (stem ++ ".go") content
      let path := dir.join (.ofText (stem ++ ".go"))
      let cgoInTest := (∃ base, stem = base ++ "_test") ∧ header.ImportsCgo
      let malformed := ∃ doc, header.IsCgoDoc doc ∧ ∃ e, CgoFlags.parse doc dir.text = .error e
      (outcome = .error ⟨path, .cgoInTest⟩ ↔ cgoInTest) ∧
      (¬ cgoInTest → ((∃ e, outcome = .error ⟨path, .directive e⟩) ↔ malformed)) ∧
      (¬ cgoInTest → ¬ malformed →
        ∃ file, outcome = .ok file ∧ file.AgreesWith config dir stem header)) ∧
    ∀ file, (∃ name content, ofGo read config dir name content = .ok file) ∨
        (∃ name content, ofOther config dir name content = .ok file) →
      ∀ (package : Package) platforms cgo, ∃ after, package.add platforms file cgo = .ok after := by
  refine ⟨fun stem content header hread => ?_, ?_⟩
  · intro outcome path cgoInTest malformed
    have htest : cgoInTest ↔
        (ofName dir (stem ++ ".go")).isTest = true ∧ header.ImportsCgo := by
      rw [isTest_ofName_iff]
    have hmalformed : malformed ↔ ∃ e, cgoFlags dir header = .error e :=
      exists_cgoFlags_eq_error_iff.symm
    have hdirective : ¬ cgoInTest → malformed →
        ∃ e, outcome = .error ⟨path, .directive e⟩ := by
      rw [htest, hmalformed]
      rintro hallowed ⟨e, he⟩
      exact ⟨e, ofGo_of_cgoFlags_eq_error hread hallowed he⟩
    have hok : ¬ cgoInTest → ¬ malformed →
        ∃ file, outcome = .ok file ∧ file.AgreesWith config dir stem header := by
      rw [htest, hmalformed]
      intro hallowed hnone
      cases hflags : cgoFlags dir header with
      | error e => exact absurd ⟨e, hflags⟩ hnone
      | ok flags => exact exists_agreesWith_of_cgoFlags_eq_ok hread hallowed rfl hflags
    -- The three outcomes exclude each other, so the converses follow from what each file does have.
    refine ⟨⟨fun h => ?_, fun ⟨hstem, himports⟩ =>
      ofGo_of_cgoInTest hread (isTest_ofName_iff.mpr hstem) himports⟩, fun hallowed =>
      ⟨fun ⟨e, h⟩ => ?_, hdirective hallowed⟩, hok⟩
    · by_contra hallowed
      by_cases hsome : malformed
      · obtain ⟨e, he⟩ := hdirective hallowed hsome
        cases he.symm.trans h
      · obtain ⟨file, hfile, -⟩ := hok hallowed hsome
        cases hfile.symm.trans h
    · by_contra hnone
      obtain ⟨file, hfile, -⟩ := hok hallowed hnone
      cases hfile.symm.trans h
  · rintro file (⟨name, content, h⟩ | ⟨name, content, h⟩) package platforms cgo
    · exact ⟨_, Package.add_of_not_refused (not_refused_of_ofGo h)⟩
    · exact ⟨_, Package.add_of_not_refused (not_refused_of_ofOther h)⟩

theorem records_agree_and_never_refused_linker :
    let header : Header := ⟨"d_test", [⟨"fmt", none⟩, ⟨"C", some "#cgo LDFLAGS: -lm"⟩]⟩
    let config : Config := { goPrefix := "", repoRoot := .ofText "/repo" }
    let dir : Path := .ofText "/repo/d"
    ∃ file, ofGo (fun _ => .ok header) config dir ("a" ++ ".go") "" = .ok file ∧
      file.packageName = "d_test" ∧ file.imports = [] ∧ file.clinkopts = [⟨"", "-lm"⟩] ∧
      ∃ after, ({ name := "d", dir, rel := "d" } : Package).add .standard file false =
        .ok after := by
  intro header config dir
  obtain ⟨houtcome, hadd⟩ := records_agree_and_never_refused (fun _ => .ok header) config dir
  obtain ⟨-, -, hok⟩ := houtcome "a" "" header rfl
  have hallowed : ¬ ((∃ base, "a" = base ++ "_test") ∧ header.ImportsCgo) := by
    rintro ⟨⟨base, hbase⟩, -⟩
    have hlength : 1 = base.length + 5 := (congrArg String.length hbase).trans
      (String.length_append base "_test")
    omega
  have hflags : cgoFlags dir header = .ok [{ clinkopts := [⟨"", "-lm"⟩] }] := by
    decide +kernel
  have hwell : ¬ ∃ doc, header.IsCgoDoc doc ∧ ∃ e, CgoFlags.parse doc dir.text = .error e := by
    rw [← exists_cgoFlags_eq_error_iff, hflags]
    nofun
  obtain ⟨file, hfile, hagrees⟩ := hok hallowed hwell
  have htest : ¬ file.isTest = true := fun htest =>
    hallowed ⟨hagrees.isTest_iff.mp htest, ⟨"C", some "#cgo LDFLAGS: -lm"⟩, by decide, rfl⟩
  have hexternal : ¬ file.isExternalTest = true := fun hexternal =>
    htest (hagrees.isExternalTest_iff.mp hexternal).1
  refine ⟨file, hfile, ?_, ?_, ?_, hadd file (.inl ⟨_, _, hfile⟩) _ _ _⟩
  · exact (hagrees.packageName_eq.trans (if_neg hexternal)).symm
  · exact hagrees.imports_eq.trans (by decide)
  · obtain ⟨flags, hown, -, hclinkopts⟩ := hagrees.flags
    obtain rfl := Except.ok.inj (hflags.symm.trans hown)
    exact hclinkopts

end SourceFile

end GoBuildRules
