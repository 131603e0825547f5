import GoBuildRules.Package.Target
import GoBuildRules.Proofs.PlatformStrings.Members

/-!
# Targets of lists of files

A target is built for all platforms at once. Here it is compared with the builds for single
platforms: on one platform a file takes part when its constraints admit the tags, and a flag when
its own tags hold.

* `mem_generic_add`, `mem_effective_add`: what one file adds to a part of a target.
* `mem_generic_foldl_add`, `mem_effective_foldl_add`: what a list of files adds.
* `ofFiles_isBuildOn`: on every platform of the table the target of a list of files holds exactly
  what the build for that platform takes from them.

The four parts of a target (`Part`) are treated alike: a name and an import are flags without tags.
-/

namespace GoBuildRules.Target

/-- The kinds of strings that a target consists of. -/
inductive Part where
  | sources
  | imports
  | copts
  | clinkopts
  deriving DecidableEq, Repr

namespace Part

/-- The strings of one kind. -/
def strings : Part → Target → PlatformStrings
  | sources, target => target.sources
  | imports, target => target.imports
  | copts, target => target.copts
  | clinkopts, target => target.clinkopts

/-- The strings of one kind that a file has, with the tags on which each depends. -/
def given : Part → SourceFile → List TaggedOpt
  | sources, file => TaggedOpt.untagged [file.name]
  | imports, file => TaggedOpt.untagged file.imports
  | copts, file => file.copts
  | clinkopts, file => file.clinkopts

end Part

/-- The file gives `s` to the part on every platform, whatever its tags. -/
def Part.GivenAlways (part : Part) (file : SourceFile) (s : String) : Prop :=
  file.constraints.isEmpty = true ∧ ∃ opt ∈ part.given file, opt.opts = s ∧ opt.tags = ""

/-- The file gives `s` to the part on a platform with exactly the given tags. -/
def Part.GivenOn (part : Part) (tags : TagSet) (file : SourceFile) (s : String) : Prop :=
  file.constraints.admits tags = true ∧ ∃ opt ∈ part.given file, opt.opts = s ∧ opt.AppliesOn tags

theorem Part.GivenAlways.givenOn {part : Part} {file : SourceFile} {s : String}
    (h : part.GivenAlways file s) (tags : TagSet) : part.GivenOn tags file s := by
  obtain ⟨hempty, opt, hopt, hs, htags⟩ := h
  exact ⟨Constraints.admits_of_isEmpty hempty tags, opt, hopt, hs, .inl htags⟩

variable {target : Target} {platforms : PlatformTable} {file : SourceFile} {part : Part}
  {name m s : String} {tags : TagSet}

/-! ## One file -/

theorem mem_generic_addForAll :
    s ∈ (part.strings (target.addForAll platforms file)).generic ↔
      s ∈ (part.strings target).generic ∨
        ∃ opt ∈ part.given file, opt.opts = s ∧ opt.tags = "" := by
  cases part with
  | sources =>
    rw [Part.given, TaggedOpt.exists_mem_untagged, and_iff_left rfl]
    exact PlatformStrings.mem_generic_addGeneric
  | imports =>
    rw [Part.given, TaggedOpt.exists_mem_untagged, and_iff_left rfl]
    exact PlatformStrings.mem_generic_addGeneric
  | copts => exact PlatformStrings.mem_generic_addGenericOpts
  | clinkopts => exact PlatformStrings.mem_generic_addGenericOpts

theorem mem_listed_addForAll :
    s ∈ (part.strings (target.addForAll platforms file)).listed m ↔
      s ∈ (part.strings target).listed m ∨ ∃ opt ∈ part.given file, opt.opts = s ∧ opt.tags ≠ "" ∧
        ∃ tags, platforms.get? m = some tags ∧ opt.AppliesOn tags := by
  cases part with
  | sources =>
    rw [Part.given, TaggedOpt.exists_mem_untagged]
    simp [Part.strings, addForAll, PlatformStrings.listed_addGeneric]
  | imports =>
    rw [Part.given, TaggedOpt.exists_mem_untagged]
    simp [Part.strings, addForAll, PlatformStrings.listed_addGeneric]
  | copts => exact PlatformStrings.mem_listed_addGenericOpts
  | clinkopts => exact PlatformStrings.mem_listed_addGenericOpts

theorem generic_addForPlatform :
    (part.strings (target.addForPlatform name tags file)).generic =
      (part.strings target).generic := by
  cases part with
  | sources => rfl
  | imports => rfl
  | copts => exact PlatformStrings.generic_addTaggedOpts _ _ _ _
  | clinkopts => exact PlatformStrings.generic_addTaggedOpts _ _ _ _

theorem mem_listed_addForPlatform :
    s ∈ (part.strings (target.addForPlatform name tags file)).listed m ↔
      s ∈ (part.strings target).listed m ∨
        m = name ∧ ∃ opt ∈ part.given file, opt.opts = s ∧ opt.AppliesOn tags := by
  cases part with
  | sources =>
    rw [Part.given, TaggedOpt.exists_mem_untagged,
      and_iff_left (TaggedOpt.appliesOn_untagged s tags)]
    exact PlatformStrings.mem_listed_addPlatform
  | imports =>
    rw [Part.given, TaggedOpt.exists_mem_untagged,
      and_iff_left (TaggedOpt.appliesOn_untagged s tags)]
    exact PlatformStrings.mem_listed_addPlatform
  | copts => exact PlatformStrings.mem_listed_addTaggedOpts
  | clinkopts => exact PlatformStrings.mem_listed_addTaggedOpts

/-- The generic strings grow by what a file without constraints gives everywhere. -/
theorem mem_generic_add :
    s ∈ (part.strings (target.add platforms file)).generic ↔
      s ∈ (part.strings target).generic ∨ part.GivenAlways file s := by
  rw [add]
  split
  · rename_i hempty
    rw [mem_generic_addForAll, Part.GivenAlways]
    simp [hempty]
  · rename_i hempty
    have step : ∀ (target : Target) (platform : String × TagSet),
        (part.strings (target.addForPlatform platform.1 platform.2 file)).generic =
          (part.strings target).generic := fun _ _ => generic_addForPlatform
    rw [Fold.foldl_eq (g := fun target => (part.strings target).generic) step, Part.GivenAlways]
    simp [hempty]

/-- A file with constraints is listed for the platforms of the table that they admit. -/
theorem mem_listed_add_of_not_isEmpty (hempty : ¬ file.constraints.isEmpty = true) :
    s ∈ (part.strings (target.add platforms file)).listed m ↔
      s ∈ (part.strings target).listed m ∨
        ∃ tags, platforms.get? m = some tags ∧ part.GivenOn tags file s := by
  have step : ∀ (target : Target) (platform : String × TagSet),
      s ∈ (part.strings (target.addForPlatform platform.1 platform.2 file)).listed m ↔
        s ∈ (part.strings target).listed m ∨ m = platform.1 ∧
          ∃ opt ∈ part.given file, opt.opts = s ∧ opt.AppliesOn platform.2 :=
    fun _ _ => mem_listed_addForPlatform
  rw [add, if_neg hempty,
    Fold.foldl_iff (P := fun target => s ∈ (part.strings target).listed m) step]
  refine or_congr_right ⟨?_, ?_⟩
  · rintro ⟨⟨name, tags⟩, hmem, rfl, hgiven⟩
    obtain ⟨hplatform, hadmits⟩ := List.mem_filter.mp hmem
    exact ⟨tags, StringMap.mem_toList_iff.mp hplatform, hadmits, hgiven⟩
  · rintro ⟨tags, hget, hadmits, hgiven⟩
    exact ⟨(m, tags), List.mem_filter.mpr ⟨StringMap.mem_toList_iff.mpr hget, hadmits⟩, rfl, hgiven⟩

/-- On one platform the strings grow by what a file gives there. -/
theorem mem_effective_add :
    s ∈ (part.strings (target.add platforms file)).effective m ↔
      s ∈ (part.strings target).effective m ∨
        (part.GivenAlways file s ∨
          ∃ tags, platforms.get? m = some tags ∧ part.GivenOn tags file s) := by
  rw [PlatformStrings.mem_effective, PlatformStrings.mem_effective, mem_generic_add]
  -- Without constraints a flag can still have tags, which hold on some platforms only.
  by_cases hempty : file.constraints.isEmpty = true
  · rw [add, if_pos hempty, mem_listed_addForAll]
    constructor
    · rintro ((hs | halways) | (hs | ⟨opt, hopt, hs, -, tags, hget, happlies⟩))
      · exact .inl (.inl hs)
      · exact .inr (.inl halways)
      · exact .inl (.inr hs)
      · have hadmits := Constraints.admits_of_isEmpty hempty tags
        exact .inr (.inr ⟨tags, hget, hadmits, opt, hopt, hs, happlies⟩)
    · rintro ((hs | hs) | (halways | ⟨tags, hget, -, opt, hopt, hs, happlies⟩))
      · exact .inl (.inl hs)
      · exact .inr (.inl hs)
      · exact .inl (.inr halways)
      · by_cases htags : opt.tags = ""
        · exact .inl (.inr ⟨hempty, opt, hopt, hs, htags⟩)
        · exact .inr (.inr ⟨opt, hopt, hs, htags, tags, hget, happlies⟩)
  · rw [mem_listed_add_of_not_isEmpty hempty]
    exact or_or_or_comm

/-! ## Lists of files -/

/-- The generic strings of a target to which a list of files was added. -/
theorem mem_generic_foldl_add (files : List SourceFile) :
    s ∈ (part.strings (files.foldl (fun target file => target.add platforms file) target)).generic ↔
      s ∈ (part.strings target).generic ∨ ∃ file ∈ files, part.GivenAlways file s :=
  Fold.foldl_iff (f := fun target file => target.add platforms file)
    (P := fun target => s ∈ (part.strings target).generic) (fun _ _ => mem_generic_add) files target

/-- The strings that hold on one platform in a target to which a list of files was added. -/
theorem mem_effective_foldl_add (files : List SourceFile) :
    s ∈ (part.strings (files.foldl (fun target file => target.add platforms file)
        target)).effective m ↔
      s ∈ (part.strings target).effective m ∨ ∃ file ∈ files, part.GivenAlways file s ∨
        ∃ tags, platforms.get? m = some tags ∧ part.GivenOn tags file s :=
  Fold.foldl_iff (f := fun target file => target.add platforms file)
    (P := fun target => s ∈ (part.strings target).effective m) (fun _ _ => mem_effective_add)
    files target

theorem strings_clean (part : Part) (target : Target) :
    part.strings target.clean = (part.strings target).clean := by
  cases part <;> rfl

/-- A clean target is determined by its clean parts. -/
theorem clean_eq_clean_of_parts {a b : Target}
    (h : ∀ part : Part, (part.strings a).clean = (part.strings b).clean) : a.clean = b.clean := by
  rw [clean, clean, Target.mk.injEq]
  exact ⟨h .sources, h .imports, h .copts, h .clinkopts⟩

/-- The target of a list of files, in its clean form. -/
def ofFiles (platforms : PlatformTable) (files : List SourceFile) : Target :=
  (files.foldl (fun (target : Target) file => target.add platforms file) {}).clean

theorem mem_generic_ofFiles (part : Part) {files : List SourceFile} :
    s ∈ (part.strings (ofFiles platforms files)).generic ↔
      ∃ file ∈ files, part.GivenAlways file s := by
  rw [ofFiles, strings_clean, PlatformStrings.mem_generic_clean, mem_generic_foldl_add]
  cases part <;> simp [Part.strings]

theorem mem_effective_ofFiles (part : Part) {files : List SourceFile} :
    s ∈ (part.strings (ofFiles platforms files)).effective m ↔
      ∃ file ∈ files, part.GivenAlways file s ∨
        ∃ tags, platforms.get? m = some tags ∧ part.GivenOn tags file s := by
  rw [ofFiles, strings_clean, PlatformStrings.mem_effective_clean, mem_effective_foldl_add,
    PlatformStrings.mem_effective]
  cases part <;> simp [Part.strings, PlatformStrings.mem_listed_iff]

/-- On a platform of the table the target holds what the files give there. -/
theorem mem_effective_ofFiles_of_get? (part : Part) {files : List SourceFile}
    (hget : platforms.get? m = some tags) :
    s ∈ (part.strings (ofFiles platforms files)).effective m ↔
      ∃ file ∈ files, part.GivenOn tags file s := by
  rw [mem_effective_ofFiles]
  constructor
  · rintro ⟨file, hfile, halways | ⟨tags', hget', hgiven⟩⟩
    · exact ⟨file, hfile, halways.givenOn tags⟩
    · obtain rfl : tags' = tags := Option.some.inj (hget'.symm.trans hget)
      exact ⟨file, hfile, hgiven⟩
  · rintro ⟨file, hfile, hgiven⟩
    exact ⟨file, hfile, .inr ⟨tags, hget, hgiven⟩⟩

/-- A platform for which the target lists something is in the table. -/
theorem mem_keys_of_mem_keys_ofFiles {files : List SourceFile}
    (h : m ∈ (part.strings (ofFiles platforms files)).platform.keys) : m ∈ platforms.keys := by
  rw [ofFiles, strings_clean, PlatformStrings.mem_keys_clean_iff, ← strings_clean, ← ofFiles] at h
  obtain ⟨s, hs⟩ := h
  have hgeneric : s ∉ (part.strings (ofFiles platforms files)).generic := by
    rw [ofFiles, strings_clean] at hs ⊢
    rw [PlatformStrings.mem_generic_clean]
    exact (PlatformStrings.mem_listed_clean.mp hs).2
  obtain ⟨file, hfile, halways | ⟨tags, hget, -⟩⟩ :=
    (mem_effective_ofFiles part).mp (PlatformStrings.mem_effective.mpr (.inr hs))
  · exact absurd ((mem_generic_ofFiles part).mpr ⟨file, hfile, halways⟩) hgeneric
  · exact StringMap.mem_keys_iff.mpr ⟨tags, hget⟩

/-! ## Builds for single platforms -/

/-- On the platform `name`, whose tags are `tags`, the target holds what a build of the files for
that platform takes: the files that their constraints admit, with all their imports and with those
of their flags that apply. -/
structure IsBuildOn (target : Target) (files : List SourceFile) (name : String) (tags : TagSet) :
    Prop where
  sources : ∀ s, s ∈ target.sources.effective name ↔
    ∃ file ∈ files, file.constraints.admits tags = true ∧ file.name = s
  imports : ∀ s, s ∈ target.imports.effective name ↔
    ∃ file ∈ files, file.constraints.admits tags = true ∧ s ∈ file.imports
  copts : ∀ s, s ∈ target.copts.effective name ↔
    ∃ file ∈ files, file.constraints.admits tags = true ∧
      ∃ opt ∈ file.copts, opt.opts = s ∧ opt.AppliesOn tags
  clinkopts : ∀ s, s ∈ target.clinkopts.effective name ↔
    ∃ file ∈ files, file.constraints.admits tags = true ∧
      ∃ opt ∈ file.clinkopts, opt.opts = s ∧ opt.AppliesOn tags

/-- The generic lists of the target hold what the files without constraints have: their names,
their imports and their flags without tags. -/
structure IsGenericOf (target : Target) (files : List SourceFile) : Prop where
  sources : ∀ s, s ∈ target.sources.generic ↔
    ∃ file ∈ files, file.constraints.isEmpty = true ∧ file.name = s
  imports : ∀ s, s ∈ target.imports.generic ↔
    ∃ file ∈ files, file.constraints.isEmpty = true ∧ s ∈ file.imports
  copts : ∀ s, s ∈ target.copts.generic ↔
    ∃ file ∈ files, file.constraints.isEmpty = true ∧
      ∃ opt ∈ file.copts, opt.opts = s ∧ opt.tags = ""
  clinkopts : ∀ s, s ∈ target.clinkopts.generic ↔
    ∃ file ∈ files, file.constraints.isEmpty = true ∧
      ∃ opt ∈ file.clinkopts, opt.opts = s ∧ opt.tags = ""

theorem givenOn_sources_iff :
    Part.GivenOn .sources tags file s ↔ file.constraints.admits tags = true ∧ file.name = s := by
  rw [Part.GivenOn, Part.given, TaggedOpt.exists_mem_untagged,
    and_iff_left (TaggedOpt.appliesOn_untagged s tags), List.mem_singleton, eq_comm (a := s)]

theorem givenOn_imports_iff :
    Part.GivenOn .imports tags file s ↔
      file.constraints.admits tags = true ∧ s ∈ file.imports := by
  rw [Part.GivenOn, Part.given, TaggedOpt.exists_mem_untagged,
    and_iff_left (TaggedOpt.appliesOn_untagged s tags)]

theorem givenAlways_sources_iff :
    Part.GivenAlways .sources file s ↔ file.constraints.isEmpty = true ∧ file.name = s := by
  rw [Part.GivenAlways, Part.given, TaggedOpt.exists_mem_untagged, and_iff_left rfl,
    List.mem_singleton, eq_comm (a := s)]

theorem givenAlways_imports_iff :
    Part.GivenAlways .imports file s ↔ file.constraints.isEmpty = true ∧ s ∈ file.imports := by
  rw [Part.GivenAlways, Part.given, TaggedOpt.exists_mem_untagged, and_iff_left rfl]

theorem ofFiles_isBuildOn {files : List SourceFile} (hget : platforms.get? name = some tags) :
    (ofFiles platforms files).IsBuildOn files name tags where
  sources s := by
    refine (mem_effective_ofFiles_of_get? .sources hget).trans ?_
    simp only [givenOn_sources_iff]
  imports s := by
    refine (mem_effective_ofFiles_of_get? .imports hget).trans ?_
    simp only [givenOn_imports_iff]
  copts _ := mem_effective_ofFiles_of_get? .copts hget
  clinkopts _ := mem_effective_ofFiles_of_get? .clinkopts hget

theorem ofFiles_isGenericOf (platforms : PlatformTable) (files : List SourceFile) :
    (ofFiles platforms files).IsGenericOf files where
  sources s := by
    refine (mem_generic_ofFiles .sources).trans ?_
    simp only [givenAlways_sources_iff]
  imports s := by
    refine (mem_generic_ofFiles .imports).trans ?_
    simp only [givenAlways_imports_iff]
  copts _ := mem_generic_ofFiles .copts
  clinkopts _ := mem_generic_ofFiles .clinkopts

/-- **One target stands for the builds of all platforms.** On every platform of the table it holds
what the build for that platform takes from the files, it has a list for no other platform, and
what it holds for all platforms comes from the files without constraints. -/
theorem ofFiles_denotes_builds (platforms : PlatformTable) (files : List SourceFile) :
    (∀ name tags, platforms.get? name = some tags →
      (ofFiles platforms files).IsBuildOn files name tags) ∧
    (∀ part : Part, ∀ name ∈ (part.strings (ofFiles platforms files)).platform.keys,
      name ∈ platforms.keys) ∧
    (ofFiles platforms files).IsGenericOf files :=
  ⟨fun _ _ hget => ofFiles_isBuildOn hget, fun _ _ hkey => mem_keys_of_mem_keys_ofFiles hkey,
    ofFiles_isGenericOf platforms files⟩

/-- Two systems, each with the tag of its name. -/
def twoSystems : PlatformTable :=
  PlatformTable.ofList [("linux", ["linux"]), ("windows", ["windows"])]

/-- A file for all platforms with a flag for Linux, and a file for Linux by its name. -/
def twoFiles : List SourceFile :=
  [{ SourceFile.ofName (.ofText "d") "a.go" with copts := [⟨"linux", "-DX"⟩] },
    SourceFile.ofName (.ofText "d") "b_linux.go"]

theorem ofFiles_denotes_builds_twoSystems :
    twoSystems.get? "linux" = some (StringSet.ofList ["linux"]) ∧
      twoSystems.get? "windows" = some (StringSet.ofList ["windows"]) ∧
      "b_linux.go" ∈ (ofFiles twoSystems twoFiles).sources.effective "linux" ∧
      "-DX" ∈ (ofFiles twoSystems twoFiles).copts.effective "linux" ∧
      "b_linux.go" ∉ (ofFiles twoSystems twoFiles).sources.effective "windows" := by
  have hlinux : twoSystems.get? "linux" = some (StringSet.ofList ["linux"]) := by decide
  have hwindows : twoSystems.get? "windows" = some (StringSet.ofList ["windows"]) := by decide
  have linux := (ofFiles_denotes_builds twoSystems twoFiles).1 _ _ hlinux
  have windows := (ofFiles_denotes_builds twoSystems twoFiles).1 _ _ hwindows
  refine ⟨hlinux, hwindows, (linux.sources _).mpr (by decide), (linux.copts _).mpr ?_,
    fun hmem => absurd ((windows.sources _).mp hmem) (by decide)⟩
  exact ⟨_, List.mem_cons_self, by decide, _, List.mem_cons_self, rfl, .inr (by decide)⟩

end GoBuildRules.Target
