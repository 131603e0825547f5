import GoBuildRules.Proofs.PlatformStrings.Members

/-!
# The canonical form of strings for platforms

Strings for platforms are canonical (`PlatformStrings.IsCanonical`) when every list ascends and a
platform has a list only for strings of its own: the list is not empty, and no string of it stands
for all platforms.

* `IsCanonical.clean_eq`: cleaning does not change a canonical value.
* `clean_canonical`: cleaning gives the one canonical value with the members of what is cleaned.
-/

namespace GoBuildRules.PlatformStrings

/-- A list for one platform that ascends and only holds strings that do not stand for all
platforms, and some. -/
structure IsOwnList (generic values : List String) : Prop where
  ascending : values.Pairwise (· < ·)
  ne_nil : values ≠ []
  disjoint : ∀ s ∈ values, s ∉ generic

/-- All lists ascend, and platforms only list strings of their own. -/
structure IsCanonical (ps : PlatformStrings) : Prop where
  ascending : ps.generic.Pairwise (· < ·)
  isOwnList : ∀ name values, ps.platform.get? name = some values → IsOwnList ps.generic values

variable {ps : PlatformStrings}

theorem generic_clean_ascending (ps : PlatformStrings) : ps.clean.generic.Pairwise (· < ·) :=
  StringSet.ascending _

theorem isOwnList_of_get?_clean {name : String} {values : List String}
    (h : ps.clean.platform.get? name = some values) : IsOwnList ps.clean.generic values := by
  rw [get?_platform_clean] at h
  split at h
  · cases h
  · rename_i hne
    obtain rfl := Option.some.inj h
    refine ⟨StringSet.ascending _, ?_, ?_⟩
    · simpa using hne
    · intro s hs
      rw [mem_generic_clean]
      exact (mem_cleanPlatform.mp hs).2

theorem isCanonical_clean (ps : PlatformStrings) : ps.clean.IsCanonical :=
  ⟨generic_clean_ascending ps, fun _ _ h => isOwnList_of_get?_clean h⟩

/-- A platform's own list is what cleaning leaves of it. -/
theorem IsOwnList.cleanPlatform_eq {generic values : List String}
    (h : IsOwnList generic values) : cleanPlatform generic values = values := by
  refine StringSet.eq_of_pairwise_of_mem_iff (StringSet.ascending _) h.ascending fun s => ?_
  rw [mem_cleanPlatform]
  exact ⟨fun hs => hs.1, fun hs => ⟨hs, h.disjoint s hs⟩⟩

theorem IsCanonical.get?_platform_clean_eq (h : ps.IsCanonical) (name : String) :
    ps.clean.platform.get? name = ps.platform.get? name := by
  rw [get?_platform_clean, listed]
  cases hget : ps.platform.get? name with
  | none => rfl
  | some values =>
    have hown := h.isOwnList name values hget
    have hne : values.isEmpty = false := List.isEmpty_eq_false_iff.mpr hown.ne_nil
    simp [hown.cleanPlatform_eq, hne]

theorem IsCanonical.clean_eq (h : ps.IsCanonical) : ps.clean = ps := by
  have hgeneric : ps.clean.generic = ps.generic :=
    StringSet.eq_of_pairwise_of_mem_iff (generic_clean_ascending ps) h.ascending fun _ =>
      mem_generic_clean
  have hplatform : ps.clean.platform = ps.platform :=
    StringMap.ext_get? h.get?_platform_clean_eq
  calc ps.clean = ⟨ps.clean.generic, ps.clean.platform⟩ := rfl
    _ = ⟨ps.generic, ps.platform⟩ := by rw [hgeneric, hplatform]
    _ = ps := rfl

/-- What a canonical value lists for a platform are strings of its own, each once. -/
theorem IsCanonical.nodup_listed (h : ps.IsCanonical) (name : String) :
    (ps.listed name).Nodup ∧ ∀ s ∈ ps.listed name, s ∉ ps.generic := by
  rw [listed]
  cases hget : ps.platform.get? name with
  | none => exact ⟨List.nodup_nil, fun _ hs => absurd hs List.not_mem_nil⟩
  | some values =>
    have hown := h.isOwnList name values hget
    exact ⟨StringMap.nodup_of_ascending hown.ascending, hown.disjoint⟩

/-- On no platform does a canonical value hold a string twice. -/
theorem IsCanonical.nodup_effective (h : ps.IsCanonical) (name : String) :
    (ps.effective name).Nodup := by
  obtain ⟨hlisted, hdisjoint⟩ := h.nodup_listed name
  refine List.nodup_append.mpr ⟨StringMap.nodup_of_ascending h.ascending, hlisted, ?_⟩
  rintro s hgeneric _ hs rfl
  exact hdisjoint s hs hgeneric

/-- **Cleaning computes a canonical form.** The clean value is canonical, it has the members of what
was cleaned, cleaning it again changes nothing, and two values have one clean form exactly when they
have the same members: those for all platforms, and those that hold on each platform. -/
theorem clean_canonical (ps : PlatformStrings) :
    ps.clean.IsCanonical ∧
      (∀ s, s ∈ ps.clean.generic ↔ s ∈ ps.generic) ∧
      (∀ name s, s ∈ ps.clean.effective name ↔ s ∈ ps.effective name) ∧
      ps.clean.clean = ps.clean ∧
      ∀ other : PlatformStrings, ps.clean = other.clean ↔
        (∀ s, s ∈ ps.generic ↔ s ∈ other.generic) ∧
          ∀ name s, s ∈ ps.effective name ↔ s ∈ other.effective name := by
  have hcanonical := isCanonical_clean ps
  exact ⟨hcanonical, fun _ => mem_generic_clean, fun _ _ => mem_effective_clean,
    hcanonical.clean_eq, fun _ => clean_eq_clean_iff⟩

end GoBuildRules.PlatformStrings
