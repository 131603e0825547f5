import GoBuildRules.Proofs.Package.PerFile

/-!
# No file is lost

When a directory has a package, each of its files meets exactly one fate (`Fate`): an error is given
about it, it is a source of one target, it is a `.proto` file of the package, or it is left out for
a reason. The package and the errors hold what the fates give and nothing else (`Accounts`).

A package knows its files by name. So what it holds about a name comes from all files whose names
read so, and only a file whose name is its own shows its fate by itself (`Fate.Holds`).

* `Accounts.holds_iff`: such a file has met one fate, the one that it is given.
* `ofDirectory_partitions`: so it is in every directory that has a package, and the errors come in
  three runs, each in the order of the file names.
-/

namespace GoBuildRules

open Package

/-- Whether the file takes part in some build: it has no constraints, or it has constraints that
admit a platform of the table. -/
def SourceFile.IsAdmitted (platforms : PlatformTable) (file : SourceFile) : Prop :=
  file.constraints.isEmpty = true ∨
    ∃ name tags, platforms.get? name = some tags ∧ file.constraints.admits tags = true

/-- A source is listed for all platforms when it has no constraints, and otherwise for exactly the
platforms that its constraints admit. -/
structure PlatformStrings.ListsSource (sources : PlatformStrings) (platforms : PlatformTable)
    (file : SourceFile) : Prop where
  generic : file.name ∈ sources.generic ↔ file.constraints.isEmpty = true
  listed : ∀ name, file.name ∈ sources.listed name ↔ file.constraints.isEmpty = false ∧
    ∃ tags, platforms.get? name = some tags ∧ file.constraints.admits tags = true

namespace Analysis

/-- Why a file is neither in the package nor in the errors. -/
inductive LeftOut (record : TreeEntry → Except FileError SourceFile) (config : Config)
    (files : List TreeEntry) (entry : TreeEntry) : Prop where
  /-- Its extension is no part of any build, or one to be ignored. -/
  | passedOver (h : SourceFile.PassedOver config entry.name)
  /-- It is a Go file that only holds documentation. -/
  | documentation (file : SourceFile) (hgo : isGo entry = true) (hrecord : record entry = .ok file)
      (h : file.packageName = documentationPackage)
  /-- It is for the C compiler, and no Go file that has a record imports `"C"`. -/
  | withoutCgo
      (hcgo : ∀ other ∈ files, isGo other = true → ∀ file, record other = .ok file →
        file.isCgo = false)
      (h : SourceFile.categoryOf entry.name = .c ∨ SourceFile.categoryOf entry.name = .cAsm)
  /-- Its constraints admit no platform. -/
  | notAdmitted (file : SourceFile) (hrecord : record entry = .ok file)
      (h : ∀ name tags, config.platforms.get? name = some tags →
        file.constraints.admits tags = false)

/-- What can become of a file of a directory that has a package. -/
inductive Fate where
  | reported
  | source (role : Role)
  | proto
  | leftOut
  deriving DecidableEq, Repr

namespace Fate

/-- How many errors there are about the file. -/
def errorCount : Fate → Nat
  | reported => 1
  | _ => 0

/-- The target of which the file is a source. -/
def role? : Fate → Option Role
  | source role => some role
  | _ => none

/-- Whether the file is among the `.proto` files of the package. -/
def isProto : Fate → Bool
  | proto => true
  | _ => false

/-- What else is known of the file. -/
def Reason (record : TreeEntry → Except FileError SourceFile) (config : Config)
    (files : List TreeEntry) (entry : TreeEntry) : Fate → Prop
  | reported => True
  | source _ => ∃ file, record entry = .ok file ∧ file.name = entry.name ∧
      file.IsAdmitted config.platforms
  | proto => SourceFile.categoryOf entry.name = .proto
  | leftOut => LeftOut record config files entry

/-- The file has met the fate: its name shows in the errors, in the targets and in the `.proto`
files as the fate says and nowhere else. -/
structure Holds (record : TreeEntry → Except FileError SourceFile) (config : Config)
    (files : List TreeEntry) (package : Package) (errors : List FileError) (entry : TreeEntry)
    (fate : Fate) : Prop where
  errors : (errorsAbout errors entry.name).length = fate.errorCount
  sources : ∀ role : Role,
    entry.name ∈ (role.target package).sources.toList ↔ fate.role? = some role
  lists : ∀ role file, fate = source role → record entry = .ok file →
    (role.target package).sources.ListsSource config.platforms file
  protos : entry.name ∈ package.protos ↔ fate.isProto = true
  reason : fate.Reason record config files entry

variable {record : TreeEntry → Except FileError SourceFile} {config : Config}
  {files : List TreeEntry} {package : Package} {errors : List FileError} {entry : TreeEntry}
  {fate other : Fate}

theorem role?_eq_some_iff {role : Role} : fate.role? = some role ↔ fate = source role := by
  cases fate <;> simp [role?]

theorem isProto_eq_true_iff : fate.isProto = true ↔ fate = proto := by
  cases fate <;> simp [isProto]

/-- A file meets one fate at most. -/
theorem eq_of_holds (h : fate.Holds record config files package errors entry)
    (hother : other.Holds record config files package errors entry) : fate = other := by
  have herrors : fate.errorCount = other.errorCount := h.errors.symm.trans hother.errors
  have hrole : fate.role? = other.role? :=
    Option.ext fun role => (h.sources role).symm.trans (hother.sources role)
  have hproto : fate.isProto = other.isProto :=
    Bool.eq_iff_iff.mpr (h.protos.symm.trans hother.protos)
  cases fate <;> cases other <;> simp_all [errorCount, role?, isProto]

end Fate

/-- The package and the errors hold what the fates of the files give, and nothing else. A name
is listed once for all files that have it, and for a platform only when it is not listed for all
platforms. -/
structure Accounts (record : TreeEntry → Except FileError SourceFile) (config : Config)
    (files : List TreeEntry) (package : Package) (errors : List FileError)
    (fates : TreeEntry → Fate) : Prop where
  errors : ∃ reports, IsReported files errors reports ∧
    ∀ entry ∈ files, (about reports entry).length = (fates entry).errorCount
  generic : ∀ (role : Role) (s : String), s ∈ (role.target package).sources.generic ↔
    ∃ entry ∈ files, entry.name = s ∧ fates entry = .source role ∧
      ∃ file, record entry = .ok file ∧ file.constraints.isEmpty = true
  listed : ∀ (role : Role) (platform s : String),
    s ∈ (role.target package).sources.listed platform ↔
      s ∉ (role.target package).sources.generic ∧
        ∃ entry ∈ files, entry.name = s ∧ fates entry = .source role ∧
          ∃ file, record entry = .ok file ∧ file.constraints.isEmpty = false ∧
            ∃ tags, config.platforms.get? platform = some tags ∧
              file.constraints.admits tags = true
  protos : ∀ s, s ∈ package.protos ↔ ∃ entry ∈ files, entry.name = s ∧ fates entry = .proto
  reason : ∀ entry ∈ files, (fates entry).Reason record config files entry

/-! ## Files with names of their own -/

section OwnName

variable {record : TreeEntry → Except FileError SourceFile} {config : Config}
  {files : List TreeEntry} {package : Package} {errors : List FileError} {entry : TreeEntry}
  {fates : TreeEntry → Fate} {role : Role}
  (h : Accounts record config files package errors fates) (hentry : entry ∈ files)
  (hown : HasOwnName files entry)

include h hentry hown

theorem Accounts.mem_generic_iff :
    entry.name ∈ (role.target package).sources.generic ↔ fates entry = .source role ∧
      ∃ file, record entry = .ok file ∧ file.constraints.isEmpty = true := by
  rw [h.generic]
  constructor
  · rintro ⟨other, hother, hname, hfile⟩
    rwa [hown other hother hname] at hfile
  · exact fun hfile => ⟨entry, hentry, rfl, hfile⟩

theorem Accounts.mem_listed_iff {platform : String} :
    entry.name ∈ (role.target package).sources.listed platform ↔ fates entry = .source role ∧
      ∃ file, record entry = .ok file ∧ file.constraints.isEmpty = false ∧
        ∃ tags, config.platforms.get? platform = some tags ∧
          file.constraints.admits tags = true := by
  rw [h.listed]
  constructor
  · rintro ⟨-, other, hother, hname, hfile⟩
    rwa [hown other hother hname] at hfile
  · rintro ⟨hsource, file, hrecord, hconstrained, hadmitted⟩
    refine ⟨fun hgeneric => ?_, entry, hentry, rfl, hsource, file, hrecord, hconstrained, hadmitted⟩
    obtain ⟨-, other, hother, hempty⟩ := (h.mem_generic_iff hentry hown).mp hgeneric
    rw [hrecord, Except.ok.injEq] at hother
    rw [hother, hempty] at hconstrained
    cases hconstrained

theorem Accounts.mem_sources_iff :
    entry.name ∈ (role.target package).sources.toList ↔ fates entry = .source role := by
  rw [PlatformStrings.mem_toList_iff, h.mem_generic_iff hentry hown]
  simp only [h.mem_listed_iff hentry hown]
  constructor
  · rintro (⟨hsource, -⟩ | ⟨platform, hsource, -⟩) <;> exact hsource
  · intro hsource
    -- A source is admitted somewhere, so some list has it.
    have hreason := h.reason entry hentry
    rw [hsource] at hreason
    obtain ⟨file, hrecord, -, hadmitted⟩ := hreason
    cases hempty : file.constraints.isEmpty with
    | true => exact .inl ⟨hsource, file, hrecord, hempty⟩
    | false =>
      obtain ⟨platform, hplatform⟩ := hadmitted.resolve_left (by simp [hempty])
      exact .inr ⟨platform, hsource, file, hrecord, hempty, hplatform⟩

theorem Accounts.listsSource {file : SourceFile} (hsource : fates entry = .source role)
    (hrecord : record entry = .ok file) :
    (role.target package).sources.ListsSource config.platforms file := by
  have hreason := h.reason entry hentry
  rw [hsource] at hreason
  obtain ⟨other, hother, hname, -⟩ := hreason
  rw [hrecord, Except.ok.injEq] at hother
  subst hother
  refine ⟨?_, fun platform => ?_⟩
  · rw [hname, h.mem_generic_iff hentry hown, and_iff_right hsource, hrecord]
    simp
  · rw [hname, h.mem_listed_iff hentry hown, and_iff_right hsource, hrecord]
    simp

/-- A file whose name is its own has met one fate, the one that it is given. -/
theorem Accounts.holds_iff (fate : Fate) :
    fate.Holds record config files package errors entry ↔ fate = fates entry := by
  have hholds : (fates entry).Holds record config files package errors entry := by
    refine ⟨?_, fun role => ?_, fun role file => h.listsSource hentry hown, ?_,
      h.reason entry hentry⟩
    · obtain ⟨reports, hreports, hcount⟩ := h.errors
      rw [hreports.errorsAbout_eq hown, hcount entry hentry]
    · rw [h.mem_sources_iff hentry hown, Fate.role?_eq_some_iff]
    · rw [h.protos, Fate.isProto_eq_true_iff]
      constructor
      · rintro ⟨other, hother, hname, hproto⟩
        rwa [hown other hother hname] at hproto
      · exact fun hproto => ⟨entry, hentry, rfl, hproto⟩
  -- What it has met it is given, and it can meet no second fate.
  exact ⟨fun hfate => Fate.eq_of_holds hfate hholds, fun heq => heq ▸ hholds⟩

end OwnName

/-! ## What the package holds -/

section Places

variable {record : TreeEntry → Except FileError SourceFile} {config : Config} {dir : Path}
  {files : List TreeEntry} {package : Package} {errors : List FileError} {entry : TreeEntry}
  {file : SourceFile} {role : Role} {name : String}

/-- The part of the package `name` that the file is has its place in the target. -/
def IsSourceOf (record : TreeEntry → Except FileError SourceFile) (files : List TreeEntry)
    (name : String) (role : Role) (entry : TreeEntry) (file : SourceFile) : Prop :=
  part? record name entry = some file ∧ file.IsTaken ∧
    (placeOf file (usesCgo record files)).role? = some role

/-- The part of the package `name` that the file is has its place among the `.proto` files. -/
def IsProtoOf (record : TreeEntry → Except FileError SourceFile) (files : List TreeEntry)
    (name : String) (entry : TreeEntry) (file : SourceFile) : Prop :=
  part? record name entry = some file ∧ file.IsTaken ∧
    placeOf file (usesCgo record files) = .protos

theorem usesCgo_eq_false_iff :
    usesCgo record files = false ↔ ∀ other ∈ files, isGo other = true →
      ∀ file, record other = .ok file → file.isCgo = false := by
  simp only [usesCgo, List.any_eq_false, mem_goFiles_iff, Bool.not_eq_true]
  constructor
  · intro h other hother hgo file hrecord
    exact h file ⟨other, hother, hgo, hrecord⟩
  · rintro h file ⟨other, hother, hgo, hrecord⟩
    exact h other hother hgo file hrecord

theorem mem_sources_iff {s : String} :
    s ∈ (role.target package).sources.toList ↔ package.Holds (.everywhere role .sources s) ∨
      ∃ platform, package.Holds (.onPlatform role .sources platform s) := by
  rw [PlatformStrings.mem_toList_iff]
  constructor
  · rintro (h | ⟨platform, h⟩)
    · exact .inl h
    · exact .inr ⟨platform, PlatformStrings.mem_effective.mpr (.inr h)⟩
  · rintro (h | ⟨platform, h⟩)
    · exact .inl h
    · rcases PlatformStrings.mem_effective.mp h with h | h
      · exact .inl h
      · exact .inr ⟨platform, h⟩

variable (h : IsAnalysis record config dir files package errors)

include h

/-- The package of an analysis is clean: it lists for a platform what does not hold everywhere. -/
theorem IsAnalysis.mem_listed_iff {platform s : String} :
    s ∈ (role.target package).sources.listed platform ↔
      package.Holds (.onPlatform role .sources platform s) ∧
        ¬ package.Holds (.everywhere role .sources s) := by
  obtain ⟨before, rfl⟩ := h.clean
  rw [holds_clean, holds_clean, target_clean]
  exact PlatformStrings.mem_listed_clean_iff_effective

/-- A part has the name of its file. -/
theorem IsAnalysis.name_eq_of_part (hpart : part? record package.name entry = some file) :
    file.name = entry.name :=
  (h.isRecord (part?_eq_some_iff.mp hpart).1).name_eq

/-- A name is a source for all platforms when a file with the name is, that has no constraints. -/
theorem IsAnalysis.holds_everywhere_iff {s : String} :
    package.Holds (.everywhere role .sources s) ↔ ∃ entry ∈ files, entry.name = s ∧
      ∃ file, IsSourceOf record files package.name role entry file ∧
        file.constraints.isEmpty = true := by
  rw [h.holds_iff]
  refine exists_congr fun entry => and_congr_right fun _ => ?_
  constructor
  · rintro ⟨file, hpart, htaken, hplace, hgiven⟩
    obtain ⟨hempty, hname⟩ := Target.givenAlways_sources_iff.mp hgiven
    exact ⟨(h.name_eq_of_part hpart).symm.trans hname, file, ⟨hpart, htaken, hplace⟩, hempty⟩
  · rintro ⟨hname, file, ⟨hpart, htaken, hplace⟩, hempty⟩
    exact ⟨file, hpart, htaken, hplace,
      Target.givenAlways_sources_iff.mpr ⟨hempty, (h.name_eq_of_part hpart).trans hname⟩⟩

/-- A name is a source on a platform when a file with the name is, that the platform admits. -/
theorem IsAnalysis.holds_onPlatform_iff {platform s : String} :
    package.Holds (.onPlatform role .sources platform s) ↔ ∃ entry ∈ files, entry.name = s ∧
      ∃ file, IsSourceOf record files package.name role entry file ∧
        (file.constraints.isEmpty = true ∨ ∃ tags, config.platforms.get? platform = some tags ∧
          file.constraints.admits tags = true) := by
  rw [h.holds_iff]
  refine exists_congr fun entry => and_congr_right fun _ => ?_
  constructor
  · rintro ⟨file, hpart, htaken, hplace, hgiven | ⟨tags, hget, hgiven⟩⟩
    · obtain ⟨hempty, hname⟩ := Target.givenAlways_sources_iff.mp hgiven
      exact ⟨(h.name_eq_of_part hpart).symm.trans hname, file, ⟨hpart, htaken, hplace⟩, .inl hempty⟩
    · obtain ⟨hadmits, hname⟩ := Target.givenOn_sources_iff.mp hgiven
      exact ⟨(h.name_eq_of_part hpart).symm.trans hname, file, ⟨hpart, htaken, hplace⟩,
        .inr ⟨tags, hget, hadmits⟩⟩
  · rintro ⟨hname, file, ⟨hpart, htaken, hplace⟩, hempty | ⟨tags, hget, hadmits⟩⟩
    · exact ⟨file, hpart, htaken, hplace, .inl
        (Target.givenAlways_sources_iff.mpr ⟨hempty, (h.name_eq_of_part hpart).trans hname⟩)⟩
    · exact ⟨file, hpart, htaken, hplace, .inr ⟨tags, hget,
        Target.givenOn_sources_iff.mpr ⟨hadmits, (h.name_eq_of_part hpart).trans hname⟩⟩⟩

/-- A name is among the `.proto` files when a file with the name has its place there. -/
theorem IsAnalysis.mem_protos_iff {s : String} :
    s ∈ package.protos ↔ ∃ entry ∈ files, entry.name = s ∧
      ∃ file, IsProtoOf record files package.name entry file := by
  have hholds : s ∈ package.protos ↔ package.Holds (.proto s) := Iff.rfl
  rw [hholds, h.holds_iff]
  refine exists_congr fun entry => and_congr_right fun _ => ?_
  constructor
  · rintro ⟨file, hpart, htaken, hplace, hname⟩
    exact ⟨(h.name_eq_of_part hpart).symm.trans hname, file, hpart, htaken, hplace⟩
  · rintro ⟨hname, file, hpart, htaken, hplace⟩
    exact ⟨file, hpart, htaken, hplace, (h.name_eq_of_part hpart).trans hname⟩

/-- A name is a source of a target when a file with the name has its place there and takes part in
some build. -/
theorem IsAnalysis.mem_sources_iff {s : String} :
    s ∈ (role.target package).sources.toList ↔ ∃ entry ∈ files, entry.name = s ∧
      ∃ file, IsSourceOf record files package.name role entry file ∧
        file.IsAdmitted config.platforms := by
  rw [Analysis.mem_sources_iff, h.holds_everywhere_iff]
  simp only [h.holds_onPlatform_iff]
  constructor
  · rintro (⟨entry, hentry, hname, file, hsource, hempty⟩ |
      ⟨platform, entry, hentry, hname, file, hsource, hempty | hadmits⟩)
    · exact ⟨entry, hentry, hname, file, hsource, .inl hempty⟩
    · exact ⟨entry, hentry, hname, file, hsource, .inl hempty⟩
    · exact ⟨entry, hentry, hname, file, hsource, .inr ⟨platform, hadmits⟩⟩
  · rintro ⟨entry, hentry, hname, file, hsource, hempty | ⟨platform, hadmits⟩⟩
    · exact .inl ⟨entry, hentry, hname, file, hsource, hempty⟩
    · exact .inr ⟨platform, entry, hentry, hname, file, hsource, .inr hadmits⟩

end Places

/-! ## The fate of a file -/

section Fate

/-- The file meets the fate by its own record. -/
structure Fate.Meets (record : TreeEntry → Except FileError SourceFile) (config : Config)
    (files : List TreeEntry) (name : String) (entry : TreeEntry) (fate : Fate) : Prop where
  faults : (faults record name entry).length = fate.errorCount
  source : ∀ role : Role, (∃ file, IsSourceOf record files name role entry file ∧
    file.IsAdmitted config.platforms) ↔ fate.role? = some role
  proto : (∃ file, IsProtoOf record files name entry file) ↔ fate.isProto = true
  reason : fate.Reason record config files entry

variable {record : TreeEntry → Except FileError SourceFile} {config : Config} {dir : Path}
  {files : List TreeEntry} {entry : TreeEntry} {file : SourceFile} {name : String}

/-- The fate of a file that is no part of the package shows in the errors alone. -/
theorem meets_of_part?_eq_none (hpart : part? record name entry = none) (fate : Fate)
    (herrors : (faults record name entry).length = fate.errorCount)
    (hrole : fate.role? = none) (hproto : fate.isProto = false)
    (hreason : fate.Reason record config files entry) :
    fate.Meets record config files name entry where
  faults := herrors
  source role := by
    rw [hrole]
    refine iff_of_false ?_ nofun
    rintro ⟨file, ⟨hsome, -⟩, -⟩
    cases hpart.symm.trans hsome
  proto := by
    rw [hproto]
    refine iff_of_false ?_ Bool.false_ne_true
    rintro ⟨file, hsome, -⟩
    cases hpart.symm.trans hsome
  reason := hreason

section Part

variable (hpart : part? record name entry = some file) (hfaults : faults record name entry = [])

include hpart hfaults

variable (config files) in
/-- The fate of a part without errors shows in the package alone, at the place of the part. -/
theorem meets_of_part (fate : Fate) (hcount : fate.errorCount = 0)
    (hsources : ∀ role, (file.IsTaken ∧ (placeOf file (usesCgo record files)).role? = some role ∧
      file.IsAdmitted config.platforms) ↔ fate.role? = some role)
    (hprotos : (file.IsTaken ∧ placeOf file (usesCgo record files) = .protos) ↔
      fate.isProto = true)
    (hreason : fate.Reason record config files entry) :
    fate.Meets record config files name entry where
  faults := by
    rw [hfaults, hcount]
    rfl
  source role := by
    rw [← hsources]
    simp only [IsSourceOf, hpart, Option.some.injEq, and_assoc, exists_eq_left']
  proto := by
    rw [← hprotos]
    simp only [IsProtoOf, hpart, Option.some.injEq, exists_eq_left']
  reason := hreason

variable (h : IsReading record config dir)

include h

/-- A part at the place of a target is a source of it, unless no platform admits the part. -/
theorem exists_meets_of_role? {role : Role} (htaken : file.IsTaken)
    (hrole : (placeOf file (usesCgo record files)).role? = some role) :
    ∃ fate : Fate, fate.Meets record config files name entry := by
  have hrecord := (part?_eq_some_iff.mp hpart).1
  have hplace : placeOf file (usesCgo record files) ≠ .protos := by
    intro hplace
    rw [hplace] at hrole
    cases hrole
  have hfate := meets_of_part config files hpart hfaults
  by_cases hadmitted : file.IsAdmitted config.platforms
  · refine ⟨.source role, hfate _ rfl ?_ ?_
      ⟨file, hrecord, (h.isRecord hrecord).name_eq, hadmitted⟩⟩
    · simp [htaken, hrole, hadmitted, Fate.role?]
    · simp [hplace, Fate.isProto]
  · refine ⟨.leftOut, hfate _ rfl ?_ ?_ (.notAdmitted file hrecord fun name tags hget => ?_)⟩
    · simp [hadmitted, Fate.role?]
    · simp [hplace, Fate.isProto]
    · exact Bool.eq_false_iff.mpr fun hadmits => hadmitted (.inr ⟨name, tags, hget, hadmits⟩)

/-- A part of the package is a source or a `.proto` file, or it is left out. -/
theorem exists_meets_of_part : ∃ fate : Fate, fate.Meets record config files name entry := by
  have hrecord := h.isRecord (part?_eq_some_iff.mp hpart).1
  have hfate := meets_of_part config files hpart hfaults
  -- A part is passed over by its name, or its category decides where it goes.
  rcases hrecord.isTaken_or_passedOver with ⟨htaken, hcategory⟩ | ⟨hnot, hpassed⟩
  · rcases SourceFile.place_cases htaken (usesCgo record files) with
      ⟨role, hrole⟩ | ⟨hplace, hproto⟩ | ⟨hplace, hcgo, hc⟩
    · exact exists_meets_of_role? hpart hfaults h htaken hrole
    · refine ⟨.proto, hfate _ rfl ?_ ?_ (hcategory.symm.trans hproto)⟩
      · simp [hplace, Place.role?, Fate.role?]
      · simp [htaken, hplace, Fate.isProto]
    · refine ⟨.leftOut, hfate _ rfl ?_ ?_
        (.withoutCgo (usesCgo_eq_false_iff.mp hcgo) (hcategory ▸ hc))⟩
      · simp [hplace, Place.role?, Fate.role?]
      · simp [hplace, Fate.isProto]
  · refine ⟨.leftOut, hfate _ rfl ?_ ?_ (.passedOver hpassed)⟩
    · simp [hnot, Fate.role?]
    · simp [hnot, Fate.isProto]

end Part

/-- Every file meets a fate by its own record. -/
theorem exists_meets (h : IsReading record config dir) (files : List TreeEntry) (name : String)
    (entry : TreeEntry) : ∃ fate : Fate, fate.Meets record config files name entry := by
  rcases outcome_cases record name entry with
    ⟨⟨e, he⟩, hpart⟩ | ⟨hfaults, hpart, hgo, file, hrecord, hdocumentation⟩ |
    ⟨hfaults, file, hrecord, hpart⟩
  · have hcount : (faults record name entry).length = Fate.reported.errorCount := by
      rw [he]
      rfl
    exact ⟨.reported, meets_of_part?_eq_none hpart _ hcount rfl rfl trivial⟩
  · have hcount : (faults record name entry).length = Fate.leftOut.errorCount := by
      rw [hfaults]
      rfl
    exact ⟨.leftOut, meets_of_part?_eq_none hpart _ hcount rfl rfl
      (.documentation file hgo hrecord hdocumentation)⟩
  · exact exists_meets_of_part hpart hfaults h

/-- The package and the errors hold what the fates give that the files meet. -/
theorem IsAnalysis.accounts {package : Package} {errors : List FileError}
    (h : IsAnalysis record config dir files package errors) {fates : TreeEntry → Fate}
    (hfates : ∀ entry, (fates entry).Meets record config files package.name entry) :
    Accounts record config files package errors fates where
  errors := by
    refine ⟨reports record package.name files, h.errors_eq ▸ h.toIsReading.isReported _ _,
      fun entry hentry => ?_⟩
    rw [about_reports h.ascending.nodup hentry, (hfates entry).faults]
  generic role s := by
    have hholds : s ∈ (role.target package).sources.generic ↔
        package.Holds (.everywhere role .sources s) := Iff.rfl
    rw [hholds, h.holds_everywhere_iff]
    refine exists_congr fun entry => and_congr_right fun _ => and_congr_right fun _ => ?_
    rw [← Fate.role?_eq_some_iff, ← (hfates entry).source role]
    constructor
    · rintro ⟨file, hsource, hempty⟩
      exact ⟨⟨file, hsource, .inl hempty⟩, file, (part?_eq_some_iff.mp hsource.1).1, hempty⟩
    · rintro ⟨⟨file, hsource, -⟩, other, hother, hempty⟩
      rw [(part?_eq_some_iff.mp hsource.1).1, Except.ok.injEq] at hother
      exact ⟨file, hsource, hother ▸ hempty⟩
  listed role platform s := by
    rw [h.mem_listed_iff, and_comm]
    refine and_congr_right fun hgeneric => ?_
    rw [h.holds_everywhere_iff] at hgeneric
    rw [h.holds_onPlatform_iff]
    refine exists_congr fun entry => and_congr_right fun hentry => and_congr_right fun hname => ?_
    rw [← Fate.role?_eq_some_iff, ← (hfates entry).source role]
    constructor
    · rintro ⟨file, hsource, hgiven⟩
      -- A file without constraints would be listed for all platforms.
      have hconstrained : file.constraints.isEmpty = false :=
        Bool.eq_false_iff.mpr fun hempty => hgeneric ⟨entry, hentry, hname, file, hsource, hempty⟩
      obtain ⟨tags, hget, hadmits⟩ := hgiven.resolve_left (by simp [hconstrained])
      exact ⟨⟨file, hsource, .inr ⟨platform, tags, hget, hadmits⟩⟩, file,
        (part?_eq_some_iff.mp hsource.1).1, hconstrained, tags, hget, hadmits⟩
    · rintro ⟨⟨file, hsource, -⟩, other, hother, -, hadmitted⟩
      rw [(part?_eq_some_iff.mp hsource.1).1, Except.ok.injEq] at hother
      exact ⟨file, hsource, .inr (hother ▸ hadmitted)⟩
  protos s := by
    rw [h.mem_protos_iff]
    refine exists_congr fun entry => and_congr_right fun _ => and_congr_right fun _ => ?_
    rw [(hfates entry).proto, Fate.isProto_eq_true_iff]
  reason entry _ := (hfates entry).reason

end Fate

/-! ## The directory -/

/-- The errors are the run: one for each file that has one, in the order of the file names. -/
structure IsRun (record : TreeEntry → Except FileError SourceFile) (name : String)
    (files : List TreeEntry) (run : Run) (errors : List FileError) : Prop where
  mem_iff : ∀ e, e ∈ errors ↔ ∃ entry ∈ files, run.IsError record name entry e
  inOrder : ∃ entries, entries.Sublist files ∧
    List.Forall₂ (run.IsError record name) entries errors
  ascending : errors.Pairwise fun a b =>
    ∃ m n, a.path.fileName? = some m ∧ b.path.fileName? = some n ∧ m ≤ n

/-- The package and the errors together account for the files, and for nothing else. -/
structure Partitions (record : TreeEntry → Except FileError SourceFile) (config : Config)
    (files : List TreeEntry) (package : Package) (errors : List FileError) : Prop where
  /-- Every file has a fate, and when its name is its own it has met this fate and no other. -/
  fate : ∃ fates : TreeEntry → Fate, Accounts record config files package errors fates ∧
    ∀ entry ∈ files, HasOwnName files entry →
      ∀ fate : Fate, fate.Holds record config files package errors entry ↔ fate = fates entry
  sources : ∀ role : Role, ∀ s ∈ (role.target package).sources.toList,
    ∃ entry ∈ files, entry.name = s
  protos : ∀ s ∈ package.protos, ∃ entry ∈ files, entry.name = s
  runs : ∃ runs : Run → List FileError,
    errors = runs .unusableGo ++ runs .otherPackage ++ runs .unusableOther ∧
      ∀ run, IsRun record package.name files run (runs run)

theorem exists_forall₂_filterMap {α β : Type} {g : α → Option β} {R : α → β → Prop}
    (hg : ∀ a b, g a = some b → R a b) (l : List α) :
    ∃ l' : List α, l'.Sublist l ∧ List.Forall₂ R l' (l.filterMap g) := by
  induction l with
  | nil => exact ⟨[], .slnil, .nil⟩
  | cons a l ih =>
    obtain ⟨l', hsublist, hall⟩ := ih
    rw [List.filterMap_cons]
    cases hsome : g a with
    | none => exact ⟨l', hsublist.cons a, hall⟩
    | some b => exact ⟨a :: l', hsublist.cons_cons a, .cons (hg a b hsome) hall⟩

section Directory

variable {record : TreeEntry → Except FileError SourceFile} {config : Config} {dir : Path}
  {files : List TreeEntry} {package : Package} {errors : List FileError}
  (h : IsAnalysis record config dir files package errors)

include h

/-- The errors of a run come in the order of the file names. -/
theorem IsAnalysis.isRun_filterMap (name : String) (run : Run) :
    IsRun record name files run (files.filterMap (run.error? record name)) := by
  have hread := h.toIsReading
  have herror : ∀ entry e, run.error? record name entry = some e →
      run.IsError record name entry e := fun _ _ he => Run.error?_eq_some_iff.mp he
  refine ⟨fun e => ?_, exists_forall₂_filterMap herror files, ?_⟩
  · simp only [List.mem_filterMap, Run.error?_eq_some_iff]
  · refine h.ascending.filterMap _ fun a b hlt ea ha eb hb => ?_
    have hname_a := hread.fileName?_of_isError (herror a ea ha)
    have hname_b := hread.fileName?_of_isError (herror b eb hb)
    exact ⟨a.name, b.name, hname_a, hname_b, TreeEntry.name_le_of_lt hlt⟩

theorem IsAnalysis.partitions : Partitions record config files package errors := by
  -- Each file has a fate by its own record; together the fates account for the package.
  choose fates hfates using exists_meets h.toIsReading files package.name
  have haccounts := h.accounts hfates
  refine ⟨⟨fates, haccounts, fun entry hentry hown => haccounts.holds_iff hentry hown⟩,
    fun role s hs => ?_, fun s hs => ?_, _, h.errors_eq, h.isRun_filterMap package.name⟩
  · obtain ⟨entry, hentry, hname, -⟩ := h.mem_sources_iff.mp hs
    exact ⟨entry, hentry, hname⟩
  · obtain ⟨entry, hentry, hname, -⟩ := h.mem_protos_iff.mp hs
    exact ⟨entry, hentry, hname⟩

end Directory

/-- **No file is lost, duplicated or misfiled.** When a directory has a package, each of its files
meets exactly one fate, the package names nothing but files of the directory, and the errors come in
three runs, each in the order of the file names. -/
theorem ofDirectory_partitions (read : HeaderReader) (config : Config) (tree : FileTree)
    (dir : Path) {package : Package} {errors : List FileError}
    (h : Package.ofDirectory read config tree dir = .ok ⟨some package, errors⟩) :
    ∃ entries, tree.list dir = .ok entries ∧
      Partitions (record read config tree dir) config (regular entries) package errors := by
  rw [Package.ofDirectory] at h
  split at h
  · cases h
  · rename_i entries hlist
    exact ⟨entries, hlist, (isAnalysis_of_ofEntries (FileTree.pairwise_list hlist) h).partitions⟩

/-- A directory with a Go file, an assembly file for Linux, a file that cannot be built and one that
is passed over. -/
def fourFiles : FileTree :=
  let empty := FileTree.empty (.ofText "/repo")
  (((empty.add (.ofText "d/a.go") (.file [])).add (.ofText "d/b_linux.s") (.file [])).add
    (.ofText "d/c.m") (.file [])).add (.ofText "d/README") .lockedFile

theorem ofDirectory_partitions_fourFiles :
    let read : HeaderReader := fun _ => .ok { packageName := "d", imports := [] }
    let config : Config :=
      { goPrefix := "", repoRoot := .ofText "/repo", platforms := Target.twoSystems }
    let dir : Path := .ofText "/repo/d"
    ∃ package errors,
      Package.ofDirectory read config fourFiles dir = .ok ⟨some package, errors⟩ ∧
      ∃ entries, fourFiles.list dir = .ok entries ∧
        Partitions (record read config fourFiles dir) config (regular entries) package
          errors := by
  intro read config dir
  have hsome : ((Package.ofDirectory read config fourFiles dir).toOption.bind
      Analysis.package).isSome = true := by decide +kernel
  obtain ⟨package, hpackage⟩ := Option.isSome_iff_exists.mp hsome
  obtain ⟨⟨_, errors⟩, hanalysis, rfl⟩ := Option.bind_eq_some_iff.mp hpackage
  have h := toOption_eq_some_iff.mp hanalysis
  exact ⟨package, errors, h, ofDirectory_partitions read config fourFiles dir h⟩

/-- A directory with two Go files whose names read alike, since neither is UTF-8. One of them
imports `"C"`. -/
def likeNames : FileTree :=
  let path (b : UInt8) : Path := ⟨Utf8.encode "d/a" ++ [b] ++ Utf8.encode ".go"⟩
  let empty := FileTree.empty (.ofText "/repo")
  (empty.add (path 0xfe) (.file "package d\n".toUTF8.toList)).add (path 0xff)
    (.file "package d\n\nimport \"C\"\n".toUTF8.toList)

/-- A file whose name is not its own need not meet a fate by its name: the package holds about the
name what another file gives. -/
theorem not_exists_holds_likeNames :
    let config : Config :=
      { goPrefix := "", repoRoot := .ofText "/repo", platforms := Target.twoSystems }
    let dir : Path := .ofText "/repo/d"
    ∃ package errors entries,
      Package.ofDirectory Header.parse config likeNames dir = .ok ⟨some package, errors⟩ ∧
      likeNames.list dir = .ok entries ∧
      ∃ entry ∈ regular entries, ¬ ∃ fate : Fate,
        fate.Holds (record Header.parse config likeNames dir) config (regular entries) package
          errors entry := by
  intro config dir
  have hany : ((Package.ofDirectory Header.parse config likeNames dir).toOption.bind
      Analysis.package).any (fun package => (likeNames.list dir).toOption.any fun entries =>
        (regular entries).any fun entry =>
          package.library.sources.toList.contains entry.name &&
            package.cgoLibrary.sources.toList.contains entry.name) = true := by decide +kernel
  simp only [Option.any_eq_true, List.any_eq_true, Bool.and_eq_true, List.contains_iff_mem] at hany
  obtain ⟨package, hpackage, entries, hentries, entry, hentry, hlibrary, hcgo⟩ := hany
  obtain ⟨⟨_, errors⟩, hanalysis, rfl⟩ := Option.bind_eq_some_iff.mp hpackage
  refine ⟨package, errors, entries, toOption_eq_some_iff.mp hanalysis,
    toOption_eq_some_iff.mp hentries, entry, hentry, ?_⟩
  rintro ⟨fate, hfate⟩
  have hboth := ((hfate.sources .library).mp hlibrary).symm.trans
    ((hfate.sources .cgoLibrary).mp hcgo)
  cases hboth

end Analysis

end GoBuildRules
