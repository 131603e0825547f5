import GoBuildRules.Proofs.PlatformStrings.Members

/-!
# Mapping strings for platforms

A function that can fail is applied to every string (`PlatformStrings.map`). Every list keeps the
values in order, and the errors are those of the strings for all platforms and then those of the
platforms in the order of their names (`IsMapping`).

* `mem_generic_map`, `mem_effective_map`: what the mapped lists hold, by the two views.
* `map_commutes_with_clean`: cleaning before a mapping makes no difference once the result is
  clean, and both mappings give errors for the same strings.
-/

namespace GoBuildRules

namespace Results

variable {α ε : Type}

/-- The values are the results that are values, in order. -/
theorem map_ok_values (results : List (Except ε α)) :
    (values results).map .ok = results.filter Except.isOk := by
  induction results with
  | nil => rfl
  | cons result rest ih =>
    cases result with
    | error e => exact ih
    | ok value => exact congrArg (Except.ok value :: ·) ih

/-- The errors are the results that are errors, in order. -/
theorem map_error_errors (results : List (Except ε α)) :
    (errors results).map .error = results.filter (!·.isOk) := by
  induction results with
  | nil => rfl
  | cons result rest ih =>
    cases result with
    | error e => exact congrArg (Except.error e :: ·) ih
    | ok value => exact ih

end Results

namespace PlatformStrings

variable {ε : Type} {f : String → Except ε String} {ps : PlatformStrings} {name s : String} {e : ε}

theorem generic_map (f : String → Except ε String) (ps : PlatformStrings) :
    (ps.map f).1.generic = Results.values (ps.generic.map f) := rfl

theorem listed_map (f : String → Except ε String) (ps : PlatformStrings) (name : String) :
    (ps.map f).1.listed name = Results.values ((ps.listed name).map f) := by
  rw [listed, listed, map, StringMap.get?_mapValues]
  cases ps.platform.get? name <;> rfl

theorem mem_generic_map :
    s ∈ (ps.map f).1.generic ↔ ∃ t ∈ ps.generic, f t = .ok s := by
  rw [generic_map, Results.mem_values_iff, List.mem_map]

/-- Mapping the strings of every platform maps those that hold on each. -/
theorem mem_effective_map :
    s ∈ (ps.map f).1.effective name ↔ ∃ t ∈ ps.effective name, f t = .ok s := by
  rw [mem_effective, listed_map, mem_generic_map, Results.mem_values_iff, List.mem_map]
  simp only [mem_effective, or_and_right, exists_or]

/-- The strings that hold on some platform are not changed by cleaning. -/
theorem mem_toList_clean : s ∈ ps.clean.toList ↔ s ∈ ps.toList := by
  simp only [mem_toList_iff_effective, mem_effective_clean]

/-- All strings, with those of the platforms by their names. -/
theorem toList_eq_flatMap (ps : PlatformStrings) :
    ps.toList = ps.generic ++ ps.platform.keys.flatMap ps.listed := by
  have hvalues : ps.platform.values.flatten = ps.platform.toList.flatMap Prod.snd := by
    rw [StringMap.values, List.flatMap_def]
  have hlisted : ps.platform.keys.flatMap ps.listed = ps.platform.toList.flatMap Prod.snd := by
    rw [StringMap.keys, List.flatMap_map, List.flatMap_def, List.flatMap_def]
    refine congrArg _ (List.map_congr_left fun entry hentry => ?_)
    rw [listed, StringMap.mem_toList_iff.mp hentry, Option.getD_some]
  rw [toList, hvalues, hlisted]

/-- The lists hold the values of `f`, each list for itself and in its order, and the errors are
those of the strings for all platforms and then those of the platforms, which come by name: every
occurrence of a string gives its value or its error. -/
structure IsMapping (f : String → Except ε String) (ps mapped : PlatformStrings)
    (errors : List ε) : Prop where
  generic : mapped.generic.map .ok = (ps.generic.map f).filter Except.isOk
  keys : mapped.platform.keys = ps.platform.keys
  listed : ∀ name, (mapped.listed name).map .ok = ((ps.listed name).map f).filter Except.isOk
  errors : errors.map .error =
    ((ps.generic ++ ps.platform.keys.flatMap ps.listed).map f).filter (!·.isOk)

theorem isMapping_map (f : String → Except ε String) (ps : PlatformStrings) :
    IsMapping f ps (ps.map f).1 (ps.map f).2 := by
  refine ⟨?_, ?_, fun name => ?_, ?_⟩
  · rw [generic_map, Results.map_ok_values]
  · simp [map, StringMap.keys, StringMap.mapValues, Function.comp_def]
  · rw [listed_map, Results.map_ok_values]
  · rw [← toList_eq_flatMap]
    exact Results.map_error_errors _

/-- A string gives an error when `f` fails on it, and no other string does. -/
theorem mem_errors_map : e ∈ (ps.map f).2 ↔ ∃ s ∈ ps.toList, f s = .error e := by
  have herrors : (ps.map f).2 = Results.errors (ps.toList.map f) := rfl
  rw [herrors, Results.mem_errors_iff, List.mem_map]

/-- **Mapping commutes with cleaning.** A function that can fail gives the same clean strings
whether or not they are clean before it is applied, however it takes strings together. Either way
every occurrence of a string gives its value or its error, in order, and the strings with an error
are those on which the function fails. -/
theorem map_commutes_with_clean {ε : Type} (f : String → Except ε String) (ps : PlatformStrings) :
    (ps.clean.map f).1.clean = (ps.map f).1.clean ∧
      IsMapping f ps (ps.map f).1 (ps.map f).2 ∧
      IsMapping f ps.clean (ps.clean.map f).1 (ps.clean.map f).2 ∧
      (∀ e, e ∈ (ps.map f).2 ↔ ∃ s ∈ ps.toList, f s = .error e) ∧
      ∀ e, e ∈ (ps.clean.map f).2 ↔ ∃ s ∈ ps.toList, f s = .error e := by
  refine ⟨clean_eq_clean_iff.mpr ⟨fun s => ?_, fun name s => ?_⟩, isMapping_map f ps,
    isMapping_map f ps.clean, fun e => mem_errors_map, fun e => ?_⟩
  · simp only [mem_generic_map, mem_generic_clean]
  · simp only [mem_effective_map, mem_effective_clean]
  · simp only [mem_errors_map, mem_toList_clean]

end PlatformStrings

end GoBuildRules
