import GoBuildRules.Proofs.Package.Facts
import GoBuildRules.Proofs.SourceFile.Name

/-!
# Records of files

What the record of a file has from its name (`SourceFile.IsRecord`): the name itself, its path in
the directory, and a category that follows from the extension unless the file is passed over. A
package never refuses such a record.

* `isRecord_of_ofGo`, `isRecord_of_ofOther`: records that are read are such records.
* `path_of_ofGo`, `path_of_ofOther`: the errors instead of records name the file.
* `place_cases`: a file that is taken goes to a target or to the `.proto` files, unless it is for
  the C compiler and no Go file imports `"C"`.
-/

namespace GoBuildRules

namespace SourceFile

variable {name : String}

/-! ## Categories of names -/

/-- The category of the files with the name. -/
def categoryOf (name : String) : FileCategory :=
  FileCategory.ofExtension (splitExtension name).2

/-- Whether files with the name are passed over: their extension is no part of any build, or it is
one that cannot be built and that is to be ignored. -/
def PassedOver (config : Config) (name : String) : Prop :=
  categoryOf name = .ignored ∨
    categoryOf name = .unsupported ∧ config.ignores (splitExtension name).2 = true

theorem extension_of_endsWith (h : Text.endsWith ".go" name = true) :
    (splitExtension name).2 = ".go" := by
  obtain ⟨stem, hstem⟩ := List.isSuffixOf_iff_suffix.mp h
  obtain rfl : String.ofList stem ++ ".go" = name := String.toList_inj.mp (by simpa using hstem)
  rw [splitExtension_go]

/-- Go files are the files whose names end in `.go`. -/
theorem categoryOf_eq_go_iff : categoryOf name = .go ↔ Text.endsWith ".go" name = true := by
  constructor
  · intro h
    have hextension : (splitExtension name).2 = ".go" := FileCategory.ofExtension_eq_go_iff.mp h
    refine List.isSuffixOf_iff_suffix.mpr ⟨(splitExtension name).1.toList, ?_⟩
    rw [← hextension, ← String.toList_append, splitExtension_append]
  · intro h
    rw [categoryOf, extension_of_endsWith h]
    rfl

/-! ## Records -/

/-- What holds of the record of a file in a directory. -/
structure IsRecord (config : Config) (dir : Path) (name : String) (file : SourceFile) :
    Prop where
  name_eq : file.name = name
  path_eq : file.path = dir.join (.ofText name)
  not_refused : ¬ ((file.isExternalTest || file.isTest) && file.isCgo) = true
  category : file.category = categoryOf name ∧
      ¬ (file.category = .ignored ∨ file.category = .unsupported) ∨
    file.category = .ignored ∧ PassedOver config name

variable {read : HeaderReader} {config : Config} {dir : Path} {file : SourceFile} {e : FileError}

/-- A package takes a record, unless the name says that the file is passed over. -/
theorem IsRecord.isTaken_or_passedOver (h : file.IsRecord config dir name) :
    file.IsTaken ∧ file.category = categoryOf name ∨ ¬ file.IsTaken ∧ PassedOver config name := by
  rcases h.category with ⟨hcategory, husable⟩ | ⟨hignored, hpassed⟩
  · exact .inl ⟨⟨husable, h.not_refused⟩, hcategory⟩
  · exact .inr ⟨fun htaken => htaken.1 (.inl hignored), hpassed⟩

/-- Only tests are external tests. -/
theorem isSome_externalPackage?_or (isTest : Bool) (packageName : String) :
    ((externalPackage? isTest packageName).isSome || isTest) = isTest := by
  cases isTest with
  | false => rfl
  | true => exact Bool.or_true _

/-- No test that imports `"C"` has a record. -/
theorem not_refused_of_ofGo {content : String} (h : ofGo read config dir name content = .ok file) :
    ¬ ((file.isExternalTest || file.isTest) && file.isCgo) = true := by
  simp only [ofGo] at h
  split at h
  · cases h
  · split at h
    · cases h
    · split at h
      · cases h
      · rename_i hcgo _ _ _
        obtain rfl := Except.ok.inj h
        rwa [isSome_externalPackage?_or]

theorem isRecord_of_ofGo {content : String} (hgo : Text.endsWith ".go" name = true)
    (h : ofGo read config dir name content = .ok file) : file.IsRecord config dir name := by
  have hrefused := not_refused_of_ofGo h
  have hcategory : categoryOf name = .go := categoryOf_eq_go_iff.mpr hgo
  simp only [ofGo] at h
  split at h
  · cases h
  · split at h
    · cases h
    · split at h
      · cases h
      · obtain rfl := Except.ok.inj h
        refine ⟨rfl, rfl, hrefused, .inl ⟨rfl, ?_⟩⟩
        show ¬ (categoryOf name = .ignored ∨ categoryOf name = .unsupported)
        rw [hcategory]
        decide

theorem path_of_ofGo {content : String} (h : ofGo read config dir name content = .error e) :
    e.path = dir.join (.ofText name) := by
  simp only [ofGo] at h
  split at h
  · rw [← Except.error.inj h]
    rfl
  · split at h
    · rw [← Except.error.inj h]
      rfl
    · split at h
      · rw [← Except.error.inj h]
        rfl
      · cases h

/-- The record of another file has from its name what only Go files have in their text. -/
theorem exists_of_ofOther {content : Option String}
    (h : ofOther config dir name content = .ok file) :
    ∃ category constraints, file = { ofName dir name with category, constraints } := by
  simp only [ofOther] at h
  -- What the name says is not looked at here, and it is costly to unfold.
  generalize ofName dir name = named at h ⊢
  split at h
  · exact ⟨_, _, (Except.ok.inj h).symm⟩
  · split at h
    · exact ⟨_, _, (Except.ok.inj h).symm⟩
    · cases h
  · exact ⟨_, _, (Except.ok.inj h).symm⟩

theorem not_refused_of_ofOther {content : Option String}
    (h : ofOther config dir name content = .ok file) :
    ¬ ((file.isExternalTest || file.isTest) && file.isCgo) = true := by
  obtain ⟨category, constraints, rfl⟩ := exists_of_ofOther h
  simp [ofName]

theorem isRecord_of_ofOther {content : Option String}
    (h : ofOther config dir name content = .ok file) : file.IsRecord config dir name := by
  have hrefused := not_refused_of_ofOther h
  simp only [ofOther] at h
  split at h
  · rename_i hcategory
    obtain rfl := Except.ok.inj h
    exact ⟨rfl, rfl, hrefused, .inr ⟨hcategory, .inl hcategory⟩⟩
  · rename_i hcategory
    split at h
    · rename_i hignores
      obtain rfl := Except.ok.inj h
      exact ⟨rfl, rfl, hrefused, .inr ⟨rfl, .inr ⟨hcategory, hignores⟩⟩⟩
    · cases h
  · rename_i hignored hunsupported
    obtain rfl := Except.ok.inj h
    refine ⟨rfl, rfl, hrefused, .inl ⟨rfl, ?_⟩⟩
    rintro (hcategory | hcategory)
    · exact hignored hcategory
    · exact hunsupported hcategory

theorem path_of_ofOther {content : Option String}
    (h : ofOther config dir name content = .error e) :
    e.path = dir.join (.ofText name) ∧ categoryOf name = .unsupported := by
  simp only [ofOther] at h
  split at h
  · cases h
  · rename_i hcategory
    split at h
    · cases h
    · rw [← Except.error.inj h]
      exact ⟨rfl, hcategory⟩
  · cases h

/-! ## Places -/

/-- A file that is taken goes to a target or to the `.proto` files; one that only the C compiler
can take goes nowhere as long as no Go file imports `"C"`. -/
theorem place_cases (htaken : file.IsTaken) (cgo : Bool) :
    (∃ role, (Package.placeOf file cgo).role? = some role) ∨
      Package.placeOf file cgo = .protos ∧ file.category = .proto ∨
      Package.placeOf file cgo = .nowhere ∧ cgo = false ∧
        (file.category = .c ∨ file.category = .cAsm) := by
  have husable := htaken.1
  unfold Package.placeOf
  split
  · exact .inl ⟨.externalTest, rfl⟩
  · split
    · exact .inl ⟨.test, rfl⟩
    · cases hcategory : file.category <;> cases cgo <;> cases hcgo : file.isCgo <;>
        simp_all [Package.Place.role?]

/-- A Go file is taken, and it has a place in some target. -/
theorem IsRecord.exists_role (h : file.IsRecord config dir name)
    (hgo : Text.endsWith ".go" name = true) (cgo : Bool) :
    file.IsTaken ∧ ∃ role, (Package.placeOf file cgo).role? = some role := by
  have hcategory : categoryOf name = .go := categoryOf_eq_go_iff.mpr hgo
  rcases h.isTaken_or_passedOver with ⟨htaken, hfile⟩ | ⟨-, hignored | ⟨hunsupported, -⟩⟩
  · rw [hcategory] at hfile
    rcases place_cases htaken cgo with hrole | ⟨-, hproto⟩ | ⟨-, -, hc | hc⟩
    · exact ⟨htaken, hrole⟩
    · cases hfile.symm.trans hproto
    · cases hfile.symm.trans hc
    · cases hfile.symm.trans hc
  · cases hcategory.symm.trans hignored
  · cases hcategory.symm.trans hunsupported

end SourceFile

end GoBuildRules
