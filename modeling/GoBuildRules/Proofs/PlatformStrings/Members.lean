import GoBuildRules.PlatformStrings
import GoBuildRules.Proofs.Fold
import GoBuildRules.Proofs.StringMap

/-!
# The members of strings for platforms

A `PlatformStrings` is read through two views: the strings for all platforms (`generic`), and those
that hold on one platform (`effective`: the generic ones and the ones listed for it). Every
operation is described by what it does to the two.

* `mem_listed_addTaggedOpts`, `mem_listed_addGenericOpts`: flags reach the platforms on which their
  own tags hold (`TaggedOpt.AppliesOn`).
* `mem_generic_clean`, `mem_effective_clean`: cleaning keeps both views.
* `clean_eq_clean_iff`: the clean form depends on the two views alone, so two values with the same
  members have one clean form.
-/

namespace GoBuildRules

/-- Whether the flags take part on a platform with exactly the given tags. -/
def TaggedOpt.AppliesOn (opt : TaggedOpt) (tags : TagSet) : Prop :=
  opt.tags = "" ∨ BuildLine.holds opt.tags tags = true

theorem TaggedOpt.isTagged_eq_false_iff {opt : TaggedOpt} :
    opt.isTagged = false ↔ opt.tags = "" := by
  rw [isTagged, Bool.not_eq_false', String.isEmpty_iff]

theorem TaggedOpt.appliesOn_iff {opt : TaggedOpt} {tags : TagSet} :
    opt.AppliesOn tags ↔ (!opt.isTagged || BuildLine.holds opt.tags tags) = true := by
  rw [AppliesOn, Bool.or_eq_true, Bool.not_eq_true', isTagged_eq_false_iff]

theorem TaggedOpt.appliesOn_untagged (s : String) (tags : TagSet) :
    (⟨"", s⟩ : TaggedOpt).AppliesOn tags := .inl rfl

/-- Strings as flags that depend on no tags. -/
def TaggedOpt.untagged (values : List String) : List TaggedOpt :=
  values.map fun value => ⟨"", value⟩

theorem TaggedOpt.exists_mem_untagged {values : List String} {s : String} {P : TaggedOpt → Prop} :
    (∃ opt ∈ untagged values, opt.opts = s ∧ P opt) ↔ s ∈ values ∧ P ⟨"", s⟩ := by
  constructor
  · rintro ⟨opt, hopt, rfl, hP⟩
    obtain ⟨value, hvalue, rfl⟩ := List.mem_map.mp hopt
    exact ⟨hvalue, hP⟩
  · rintro ⟨hs, hP⟩
    exact ⟨⟨"", s⟩, List.mem_map_of_mem hs, rfl, hP⟩

namespace PlatformStrings

/-- The strings listed for one platform, without those for all platforms. -/
def listed (ps : PlatformStrings) (name : String) : List String :=
  (ps.platform.get? name).getD []

/-- The strings that hold on one platform: those for all platforms, then those listed for it. -/
def effective (ps : PlatformStrings) (name : String) : List String :=
  ps.generic ++ ps.listed name

variable {ps : PlatformStrings} {name m s : String}

theorem mem_effective : s ∈ ps.effective name ↔ s ∈ ps.generic ∨ s ∈ ps.listed name :=
  List.mem_append

theorem mem_listed_iff :
    s ∈ ps.listed name ↔ ∃ values, ps.platform.get? name = some values ∧ s ∈ values := by
  rw [listed]
  cases ps.platform.get? name with
  | none => simp
  | some values => simp

theorem mem_toList_iff : s ∈ ps.toList ↔ s ∈ ps.generic ∨ ∃ name, s ∈ ps.listed name := by
  simp only [toList, List.mem_append, List.mem_flatten, StringMap.mem_values_iff, mem_listed_iff]
  refine or_congr_right ⟨?_, ?_⟩
  · rintro ⟨values, ⟨name, hname⟩, hs⟩
    exact ⟨name, values, hname, hs⟩
  · rintro ⟨name, values, hname, hs⟩
    exact ⟨values, ⟨name, hname⟩, hs⟩

/-- Every string holds on some platform. -/
theorem mem_toList_iff_effective : s ∈ ps.toList ↔ ∃ name, s ∈ ps.effective name := by
  simp only [mem_toList_iff, mem_effective]
  constructor
  · rintro (h | ⟨name, h⟩)
    · exact ⟨"", .inl h⟩
    · exact ⟨name, .inr h⟩
  · rintro ⟨name, h | h⟩
    · exact .inl h
    · exact .inr ⟨name, h⟩

/-! ## Additions -/

theorem mem_generic_addGeneric {values : List String} :
    s ∈ (ps.addGeneric values).generic ↔ s ∈ ps.generic ∨ s ∈ values :=
  List.mem_append

theorem listed_addGeneric (ps : PlatformStrings) (values : List String) (name : String) :
    (ps.addGeneric values).listed name = ps.listed name := rfl

theorem listed_addPlatform (ps : PlatformStrings) (name m : String) (values : List String) :
    (ps.addPlatform name values).listed m =
      if m = name then ps.listed m ++ values else ps.listed m := by
  rw [listed, addPlatform, StringMap.get?_alter]
  split <;> rfl

theorem mem_listed_addPlatform {values : List String} :
    s ∈ (ps.addPlatform name values).listed m ↔ s ∈ ps.listed m ∨ m = name ∧ s ∈ values := by
  rw [listed_addPlatform]
  split <;> rename_i h <;> simp [h]

theorem generic_addTaggedOpts (ps : PlatformStrings) (name : String) (tags : TagSet)
    (opts : List TaggedOpt) : (ps.addTaggedOpts name tags opts).generic = ps.generic := by
  have step : ∀ (ps : PlatformStrings) (opt : TaggedOpt),
      (ps.addPlatform name [opt.opts]).generic = ps.generic := fun _ _ => rfl
  rw [addTaggedOpts, Fold.foldl_eq step]

/-- Flags of a file for one platform: those that apply there are listed for it. -/
theorem mem_listed_addTaggedOpts {tags : TagSet} {opts : List TaggedOpt} :
    s ∈ (ps.addTaggedOpts name tags opts).listed m ↔
      s ∈ ps.listed m ∨ m = name ∧ ∃ opt ∈ opts, opt.opts = s ∧ opt.AppliesOn tags := by
  have step : ∀ (ps : PlatformStrings) (opt : TaggedOpt),
      s ∈ (ps.addPlatform name [opt.opts]).listed m ↔ s ∈ ps.listed m ∨ m = name ∧ opt.opts = s :=
    fun ps opt => by rw [mem_listed_addPlatform, List.mem_singleton, eq_comm (a := s)]
  rw [addTaggedOpts, Fold.foldl_iff (P := fun ps : PlatformStrings => s ∈ ps.listed m) step]
  refine or_congr_right ⟨?_, ?_⟩
  · rintro ⟨opt, hmem, hm, hs⟩
    obtain ⟨hopt, happlies⟩ := List.mem_filter.mp hmem
    exact ⟨hm, opt, hopt, hs, TaggedOpt.appliesOn_iff.mpr happlies⟩
  · rintro ⟨hm, opt, hopt, hs, happlies⟩
    exact ⟨opt, List.mem_filter.mpr ⟨hopt, TaggedOpt.appliesOn_iff.mp happlies⟩, hm, hs⟩

/-- A flag without tags is for all platforms, and one with tags for none as such. -/
theorem mem_generic_addGenericOpt {platforms : PlatformTable} {opt : TaggedOpt} :
    s ∈ (addGenericOpt platforms ps opt).generic ↔
      s ∈ ps.generic ∨ opt.opts = s ∧ opt.tags = "" := by
  rw [addGenericOpt, ← TaggedOpt.isTagged_eq_false_iff]
  split
  · rename_i htagged
    have step : ∀ (ps : PlatformStrings) (platform : String × TagSet),
        (if BuildLine.holds opt.tags platform.2 then ps.addPlatform platform.1 [opt.opts]
          else ps).generic = ps.generic := by
      intro ps platform
      split <;> rfl
    rw [Fold.foldl_eq step]
    simp [htagged]
  · rename_i htagged
    rw [mem_generic_addGeneric, List.mem_singleton, eq_comm (a := s)]
    simp [htagged]

/-- A flag with tags is listed for the platforms of the table on which its tags hold. -/
theorem mem_listed_addGenericOpt {platforms : PlatformTable} {opt : TaggedOpt} :
    s ∈ (addGenericOpt platforms ps opt).listed m ↔
      s ∈ ps.listed m ∨ opt.opts = s ∧ opt.tags ≠ "" ∧
        ∃ tags, platforms.get? m = some tags ∧ opt.AppliesOn tags := by
  rw [addGenericOpt]
  split
  · rename_i htagged
    have hne : opt.tags ≠ "" := by
      rw [ne_eq, ← TaggedOpt.isTagged_eq_false_iff, htagged]
      exact Bool.noConfusion
    -- The flag is added for one platform after the other, so one step of the fold decides.
    have step : ∀ (ps : PlatformStrings) (platform : String × TagSet),
        s ∈ (if BuildLine.holds opt.tags platform.2 then ps.addPlatform platform.1 [opt.opts]
          else ps).listed m ↔
        s ∈ ps.listed m ∨
          opt.opts = s ∧ m = platform.1 ∧ BuildLine.holds opt.tags platform.2 = true := by
      intro ps platform
      split <;> rename_i hholds
      · rw [mem_listed_addPlatform, List.mem_singleton]
        simp [hholds, eq_comm, and_comm]
      · simp [hholds]
    rw [Fold.foldl_iff (P := fun ps : PlatformStrings => s ∈ ps.listed m) step]
    refine or_congr_right ⟨?_, ?_⟩
    · rintro ⟨⟨name, tags⟩, hmem, hs, rfl, hholds⟩
      exact ⟨hs, hne, tags, StringMap.mem_toList_iff.mp hmem, .inr hholds⟩
    · rintro ⟨hs, -, tags, hget, happlies⟩
      exact ⟨(m, tags), StringMap.mem_toList_iff.mpr hget, hs, rfl, happlies.resolve_left hne⟩
  · rename_i htagged
    have hempty : opt.tags = "" :=
      TaggedOpt.isTagged_eq_false_iff.mp (Bool.eq_false_iff.mpr htagged)
    rw [listed_addGeneric]
    simp [hempty]

/-- Flags of a file for all platforms: those without tags are generic. -/
theorem mem_generic_addGenericOpts {platforms : PlatformTable} {opts : List TaggedOpt} :
    s ∈ (ps.addGenericOpts platforms opts).generic ↔
      s ∈ ps.generic ∨ ∃ opt ∈ opts, opt.opts = s ∧ opt.tags = "" :=
  Fold.foldl_iff (f := addGenericOpt platforms) (P := fun ps => s ∈ ps.generic)
    (fun _ _ => mem_generic_addGenericOpt) opts ps

/-- Flags of a file for all platforms: those with tags are listed where their tags hold. -/
theorem mem_listed_addGenericOpts {platforms : PlatformTable} {opts : List TaggedOpt} :
    s ∈ (ps.addGenericOpts platforms opts).listed m ↔
      s ∈ ps.listed m ∨ ∃ opt ∈ opts, opt.opts = s ∧ opt.tags ≠ "" ∧
        ∃ tags, platforms.get? m = some tags ∧ opt.AppliesOn tags :=
  Fold.foldl_iff (f := addGenericOpt platforms) (P := fun ps => s ∈ ps.listed m)
    (fun _ _ => mem_listed_addGenericOpt) opts ps

/-! ## The clean form -/

theorem mem_cleanPlatform {generic values : List String} :
    s ∈ cleanPlatform generic values ↔ s ∈ values ∧ s ∉ generic := by
  rw [cleanPlatform, StringSet.mem_toList, StringSet.mem_ofList, List.mem_filter,
    Bool.not_eq_true', List.contains_eq_mem, decide_eq_false_iff_not]

theorem mem_generic_clean : s ∈ ps.clean.generic ↔ s ∈ ps.generic := by
  rw [clean, StringSet.mem_toList, StringSet.mem_ofList]

/-- A platform keeps what `cleanPlatform` leaves of its list, unless that is nothing. -/
theorem get?_platform_clean (ps : PlatformStrings) (name : String) :
    ps.clean.platform.get? name =
      if (cleanPlatform ps.generic (ps.listed name)).isEmpty then none
      else some (cleanPlatform ps.generic (ps.listed name)) := by
  rw [clean, StringMap.get?_filterValues, StringMap.get?_mapValues, listed]
  cases ps.platform.get? name with
  | none => rfl
  | some values =>
    rw [Option.map_some, Option.getD_some, Option.filter_some]
    cases (cleanPlatform ps.generic values).isEmpty <;> rfl

theorem listed_clean (ps : PlatformStrings) (name : String) :
    ps.clean.listed name = cleanPlatform ps.generic (ps.listed name) := by
  rw [listed, get?_platform_clean]
  split
  · rename_i h
    rw [List.isEmpty_iff.mp h, Option.getD_none]
  · rw [Option.getD_some]

theorem mem_listed_clean :
    s ∈ ps.clean.listed name ↔ s ∈ ps.listed name ∧ s ∉ ps.generic := by
  rw [listed_clean, mem_cleanPlatform]

theorem mem_effective_clean : s ∈ ps.clean.effective name ↔ s ∈ ps.effective name := by
  rw [mem_effective, mem_effective, mem_generic_clean, mem_listed_clean]
  by_cases h : s ∈ ps.generic <;> simp [h]

/-- A clean value lists for a platform what holds there and not everywhere. -/
theorem mem_listed_clean_iff_effective :
    s ∈ ps.clean.listed name ↔ s ∈ ps.effective name ∧ s ∉ ps.generic := by
  rw [mem_listed_clean, mem_effective]
  by_cases h : s ∈ ps.generic <;> simp [h]

/-- A clean value has a list only for the platforms for which it lists something. -/
theorem mem_keys_clean_iff :
    name ∈ ps.clean.platform.keys ↔ ∃ s, s ∈ ps.clean.listed name := by
  simp only [StringMap.mem_keys_iff, mem_listed_iff]
  constructor
  · rintro ⟨values, hget⟩
    have hne : values ≠ [] := by
      rw [clean, StringMap.get?_filterValues, Option.filter_eq_some_iff] at hget
      simpa using hget.2
    obtain ⟨s, hs⟩ := List.exists_mem_of_ne_nil values hne
    exact ⟨s, values, hget, hs⟩
  · rintro ⟨_, values, hget, -⟩
    exact ⟨values, hget⟩

/-- Two clean lists of one platform agree when they have the same members. -/
theorem cleanPlatform_congr {generic generic' values values' : List String}
    (h : ∀ s, (s ∈ values ∧ s ∉ generic) ↔ (s ∈ values' ∧ s ∉ generic')) :
    cleanPlatform generic values = cleanPlatform generic' values' :=
  StringSet.eq_of_pairwise_of_mem_iff (StringSet.ascending _) (StringSet.ascending _) fun s =>
    mem_cleanPlatform.trans ((h s).trans mem_cleanPlatform.symm)

/-- The clean form depends on the members alone: those for all platforms, and those that hold on
each platform. -/
theorem clean_eq_clean_iff {a b : PlatformStrings} :
    a.clean = b.clean ↔
      (∀ s, s ∈ a.generic ↔ s ∈ b.generic) ∧
        ∀ name s, s ∈ a.effective name ↔ s ∈ b.effective name := by
  constructor
  · intro h
    constructor
    · intro s
      rw [← mem_generic_clean, h, mem_generic_clean]
    · intro name s
      rw [← mem_effective_clean, h, mem_effective_clean]
  · rintro ⟨hgeneric, heffective⟩
    -- Lists with the same members have the same ascending set of them.
    have hset : StringSet.ofList a.generic = StringSet.ofList b.generic :=
      StringSet.ext_mem fun s => by rw [StringSet.mem_ofList, StringSet.mem_ofList, hgeneric]
    have hplatform : a.clean.platform = b.clean.platform := by
      refine StringMap.ext_get? fun name => ?_
      rw [get?_platform_clean, get?_platform_clean, cleanPlatform_congr fun s => ?_]
      rw [← mem_listed_clean, ← mem_listed_clean, mem_listed_clean_iff_effective,
        mem_listed_clean_iff_effective, hgeneric, heffective]
    calc a.clean = ⟨(StringSet.ofList a.generic).toList, a.clean.platform⟩ := rfl
      _ = ⟨(StringSet.ofList b.generic).toList, b.clean.platform⟩ := by rw [hset, hplatform]
      _ = b.clean := rfl

end PlatformStrings

end GoBuildRules
