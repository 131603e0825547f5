import GoBuildRules.Proofs.Package.Removal
import GoBuildRules.Proofs.Rule.Coverage
import GoBuildRules.Proofs.SourceFile.Flags

/-!
# Which flags a rule passes

The flags of a package come from its Go files that import `"C"`, all of which are sources of the cgo
library (`Analysis.mem_generic_flags_iff`, `Analysis.mem_effective_flags_iff`), and the rule of the
cgo library passes them on (`Package.Role.mem_strings_flags_iff`). Nothing on this way drops an
empty flag, so a directive without arguments puts one into the rule
(`Analysis.ofDirectory_emptyFlags`).
-/

namespace GoBuildRules

open Package

/-- The attribute of a rule that passes the flags for the tool. -/
def Tool.key : Tool → String
  | compiler => "copts"
  | linker => "clinkopts"

/-- Whether a comment above an import of `"C"` in the text has a directive for the tool with these
tags and without arguments. -/
def HasBareCgo (read : HeaderReader) (tool : Tool) (tags content : String) : Prop :=
  ∃ header doc, read content = .ok header ∧ header.IsCgoDoc doc ∧ HasBareDirective tool tags doc

namespace SourceFile

/-- The file has no constraints, and such a directive in its text has no tags. -/
def BareAlways (read : HeaderReader) (tool : Tool) (content : String) (file : SourceFile) : Prop :=
  file.constraints.isEmpty = true ∧ HasBareCgo read tool "" content

/-- The constraints of the file and the tags of such a directive in its text hold on a platform with
exactly the given tags. -/
def BareOn (read : HeaderReader) (tool : Tool) (tags : TagSet) (content : String)
    (file : SourceFile) : Prop :=
  file.constraints.admits tags = true ∧
    ∃ own, HasBareCgo read tool own content ∧ (⟨own, ""⟩ : TaggedOpt).AppliesOn tags

variable {read : HeaderReader} {config : Config} {dir : Path} {name content tags : String}
  {file : SourceFile} {tool : Tool} {opt : TaggedOpt}

/-- The empty flags of a Go file come from the directives without arguments. -/
theorem empty_mem_given_iff (h : ofGo read config dir name content = .ok file) :
    ⟨tags, ""⟩ ∈ tool.part.given file ↔ HasBareCgo read tool tags content := by
  obtain ⟨header, hread⟩ := exists_header_of_ofGo h
  rw [mem_given_iff_of_ofGo h hread]
  constructor
  · rintro ⟨doc, flags, hdoc, hparse, hopt⟩
    exact ⟨header, doc, hread, hdoc, (CgoFlags.empty_mem_flags_iff hparse).mp hopt⟩
  · rintro ⟨other, doc, hother, hdoc, hbare⟩
    obtain rfl := Except.ok.inj (hread.symm.trans hother)
    obtain ⟨flags, hparse⟩ := exists_parse_of_ofGo h hread hdoc
    exact ⟨doc, flags, hdoc, hparse, (CgoFlags.empty_mem_flags_iff hparse).mpr hbare⟩

theorem givenAlways_empty_iff (h : ofGo read config dir name content = .ok file) :
    tool.part.GivenAlways file "" ↔ file.BareAlways read tool content := by
  refine and_congr_right fun _ => ?_
  rw [← empty_mem_given_iff h]
  constructor
  · rintro ⟨⟨tags, opts⟩, hopt, rfl, rfl⟩
    exact hopt
  · exact fun hopt => ⟨_, hopt, rfl, rfl⟩

theorem givenOn_empty_iff {tags : TagSet} (h : ofGo read config dir name content = .ok file) :
    tool.part.GivenOn tags file "" ↔ file.BareOn read tool tags content := by
  refine and_congr_right fun _ => ?_
  simp only [← empty_mem_given_iff h]
  constructor
  · rintro ⟨⟨own, opts⟩, hopt, rfl, happlies⟩
    exact ⟨own, hopt, happlies⟩
  · rintro ⟨own, hopt, happlies⟩
    exact ⟨_, hopt, rfl, happlies⟩

/-- A Go file with flags is taken, and it goes to the cgo library. -/
theorem isTaken_of_mem_given (hgo : Text.endsWith ".go" name = true)
    (h : ofGo read config dir name content = .ok file) (hopt : opt ∈ tool.part.given file)
    (cgo : Bool) : file.IsTaken ∧ placeOf file cgo = .cgoLibrary := by
  have hrecord := isRecord_of_ofGo hgo h
  exact ⟨(hrecord.exists_role hgo cgo).1,
    placeOf_of_isCgo (isCgo_of_mem_given h hopt) hrecord.not_refused cgo⟩

end SourceFile

/-! ## The flags of a package -/

namespace Analysis

/-- The record is that of a Go file of the directory with the text `content`, and the file declares
the package `name`. -/
structure IsMember (read : HeaderReader) (config : Config) (tree : FileTree) (dir : Path)
    (name content : String) (file : SourceFile) : Prop where
  exists_entry : ∃ entry ∈ filesIn tree dir, isGo entry = true ∧
    tree.readText entry.path = .ok content ∧
    SourceFile.ofGo read config dir entry.name content = .ok file
  packageName_ne : file.packageName ≠ documentationPackage
  packageName_eq : file.packageName = name

variable {read : HeaderReader} {config : Config} {tree : FileTree} {dir : Path}
  {package : Package} {errors : List FileError} {name platform s : String} {entry : TreeEntry}
  {file : SourceFile} {tool : Tool} {opt : TaggedOpt} {role : Role}

theorem isAnalysis_of_ofDirectory
    (h : Package.ofDirectory read config tree dir = .ok ⟨some package, errors⟩) :
    IsAnalysis (record read config tree dir) config dir (filesIn tree dir) package errors := by
  rw [Package.ofDirectory] at h
  split at h
  · cases h
  · rename_i entries hlist
    rw [filesIn_eq hlist]
    exact isAnalysis_of_ofEntries (FileTree.pairwise_list hlist) h

/-- Only Go files have flags. -/
theorem isGo_of_mem_given (h : record read config tree dir entry = .ok file)
    (hopt : opt ∈ tool.part.given file) : isGo entry = true := by
  by_contra hgo
  obtain ⟨content, hother⟩ := exists_ofOther_of_record (Bool.eq_false_iff.mpr hgo) h
  rw [SourceFile.given_of_ofOther hother] at hopt
  cases hopt

/-- A part of a package with flags is a Go file that declares the package. -/
theorem exists_isMember_of_part? (hentry : entry ∈ filesIn tree dir)
    (hpart : part? (record read config tree dir) name entry = some file)
    (hopt : opt ∈ tool.part.given file) :
    ∃ content, IsMember read config tree dir name content file := by
  obtain ⟨hrecord, hname⟩ := part?_eq_some_iff.mp hpart
  have hgo := isGo_of_mem_given hrecord hopt
  obtain ⟨content, htext, hread⟩ := exists_ofGo_of_record hgo hrecord
  exact ⟨content, ⟨entry, hentry, hgo, htext, hread⟩, (hname hgo).1, (hname hgo).2⟩

/-- A Go file that declares a package is a part of it, and the flags that it has are for the cgo
library. -/
theorem IsMember.exists_part? {content : String}
    (h : IsMember read config tree dir name content file) (hopt : opt ∈ tool.part.given file) :
    ∃ entry ∈ filesIn tree dir, part? (record read config tree dir) name entry = some file ∧
      file.IsTaken ∧ ∀ cgo, placeOf file cgo = .cgoLibrary := by
  obtain ⟨entry, hentry, hgo, htext, hread⟩ := h.exists_entry
  have hrecord : record read config tree dir entry = .ok file := by
    rw [record, if_pos hgo, readGo, htext]
    exact hread
  have htaken := SourceFile.isTaken_of_mem_given hgo hread hopt
  exact ⟨entry, hentry, part?_eq_some_iff.mpr ⟨hrecord, fun _ => ⟨h.packageName_ne,
    h.packageName_eq⟩⟩, (htaken false).1, fun cgo => (htaken cgo).2⟩

/-- The files of the package that give flags to a target are the Go files that declare the package,
and the target is the cgo library. -/
theorem exists_part_flags_iff (tool : Tool) {P : SourceFile → Prop}
    (hP : ∀ {file}, P file → ∃ opt, opt ∈ tool.part.given file) (cgo : Bool) :
    (∃ entry ∈ filesIn tree dir, ∃ file,
      part? (record read config tree dir) name entry = some file ∧
        file.IsTaken ∧ (placeOf file cgo).role? = some role ∧ P file) ↔
      role = .cgoLibrary ∧
        ∃ content file, IsMember read config tree dir name content file ∧ P file := by
  constructor
  · rintro ⟨entry, hentry, file, hpart, -, hplace, hfile⟩
    obtain ⟨opt, hopt⟩ := hP hfile
    obtain ⟨content, hmember⟩ := exists_isMember_of_part? hentry hpart hopt
    obtain ⟨-, -, -, -, hcgo⟩ := hmember.exists_part? hopt
    rw [hcgo] at hplace
    exact ⟨(Option.some.inj hplace).symm, content, file, hmember, hfile⟩
  · rintro ⟨rfl, content, file, hmember, hfile⟩
    obtain ⟨opt, hopt⟩ := hP hfile
    obtain ⟨entry, hentry, hpart, htaken, hcgo⟩ := hmember.exists_part? hopt
    exact ⟨entry, hentry, file, hpart, htaken, congrArg Place.role? (hcgo cgo), hfile⟩

/-- What is the same of all records of Go files is the same of the Go files of a package. -/
theorem exists_isMember_congr {P Q : String → SourceFile → Prop}
    (h : ∀ {own content file}, SourceFile.ofGo read config dir own content = .ok file →
      (P content file ↔ Q content file)) :
    (∃ content file, IsMember read config tree dir name content file ∧ P content file) ↔
      ∃ content file, IsMember read config tree dir name content file ∧ Q content file := by
  refine exists_congr fun content => exists_congr fun file => and_congr_right fun hmember => ?_
  obtain ⟨entry, -, -, -, hread⟩ := hmember.exists_entry
  exact h hread

section Package

variable (h : Package.ofDirectory read config tree dir = .ok ⟨some package, errors⟩)

include h

/-- The flags for all platforms come from the Go files without constraints. -/
theorem mem_generic_flags_iff :
    s ∈ (tool.part.strings (role.target package)).generic ↔ role = .cgoLibrary ∧
      ∃ content file, IsMember read config tree dir package.name content file ∧
        tool.part.GivenAlways file s := by
  refine ((isAnalysis_of_ofDirectory h).holds_iff (.everywhere role tool.part s)).trans ?_
  refine exists_part_flags_iff tool ?_ _
  rintro file ⟨-, opt, hopt, -⟩
  exact ⟨opt, hopt⟩

/-- The flags on a platform come from the Go files that take part in its builds. -/
theorem mem_effective_flags_iff :
    s ∈ (tool.part.strings (role.target package)).effective platform ↔ role = .cgoLibrary ∧
      ∃ content file, IsMember read config tree dir package.name content file ∧
        (tool.part.GivenAlways file s ∨
          ∃ tags, config.platforms.get? platform = some tags ∧ tool.part.GivenOn tags file s) := by
  refine ((isAnalysis_of_ofDirectory h).holds_iff (.onPlatform role tool.part platform s)).trans ?_
  refine exists_part_flags_iff tool ?_ _
  rintro file (⟨-, opt, hopt, -⟩ | ⟨-, -, -, opt, hopt, -⟩)
  · exact ⟨opt, hopt⟩
  · exact ⟨opt, hopt⟩

end Package

end Analysis

/-! ## The flags of a rule -/

namespace Package.Role

variable {config : Config} {package : Package} {tool : Tool} {r : Rule} {s : String}

open Generated in
/-- The attributes of the cgo library have the flags for a tool under its key. -/
theorem findSome?_get?_flags (config : Config) (package : Package) (tool : Tool) :
    ([srcs config package.cgoLibrary, flags config "copts" package.cgoLibrary.copts,
        flags config "clinkopts" package.cgoLibrary.clinkopts,
        deps config package package.cgoLibrary, visibility "private"].findSome?
      fun a => a.get? tool.key) =
      (flags config tool.key (tool.part.strings package.cgoLibrary)).get? tool.key := by
  cases tool <;> simp [Tool.key, Tool.part, Target.Part.strings]

open Generated in
/-- The rule of the cgo library passes the flags of the target. -/
theorem mem_strings_flags_iff (h : r ∈ (cgoLibrary.generated config package).rules) :
    s ∈ r.strings tool.key ↔
      ∃ platform, s ∈ (tool.part.strings package.cgoLibrary).effective platform := by
  have hkey : tool.key ≠ "name" := by cases tool <;> decide
  rw [strings_of_mem_rule h hkey, findSome?_get?_flags, get?_flags, if_pos rfl]
  cases hempty : (tool.part.strings package.cgoLibrary).isEmpty with
  | false => exact mem_values_platformValue.trans PlatformStrings.mem_toList_iff_effective
  | true => simp [PlatformStrings.effective_eq_nil_of_isEmpty hempty]

/-- A rule of the kind of the cgo library is that of the cgo library. -/
theorem mem_generated_cgoLibrary (h : r ∈ (package.generate config).rules)
    (hkind : r.kind = cgoLibrary.kind) : r ∈ (cgoLibrary.generated config package).rules := by
  rcases mem_rules_generate_iff.mp h with h | ⟨role, h⟩
  · exact absurd (hkind.symm.trans (Generated.kind_of_mem_rule h)) (by decide)
  · have hrole : cgoLibrary.kind = role.kind := hkind.symm.trans (isRule_of_mem_generated h).1
    cases role with
    | cgoLibrary => exact h
    | library | binary | test | externalTest => exact absurd hrole (by decide)

end Package.Role

namespace Analysis

/-- **Where empty flags come from.** A comment gives the empty flag exactly when it has a directive
without arguments. The package of a directory holds the empty flag exactly in the cgo library, for
the files that declare the package and have such a directive above an import of `"C"`: on all
platforms where neither the file nor the directive depends on the platform, and else on those on
which both hold. The rule of the cgo library passes it exactly when the cgo library holds it on some
platform. -/
theorem ofDirectory_emptyFlags (read : HeaderReader) (config : Config) (tree : FileTree)
    (dir : Path) {package : Package} {errors : List FileError}
    (h : Package.ofDirectory read config tree dir = .ok ⟨some package, errors⟩) :
    (∀ comment sourceDir flags, CgoFlags.parse comment sourceDir = .ok flags →
      ∀ (tool : Tool) (tags : String),
        ⟨tags, ""⟩ ∈ tool.flags flags ↔ HasBareDirective tool tags comment) ∧
    ∀ tool : Tool,
      (∀ role : Role, "" ∈ (tool.part.strings (role.target package)).generic ↔
        role = .cgoLibrary ∧ ∃ content file,
          IsMember read config tree dir package.name content file ∧
            file.BareAlways read tool content) ∧
      (∀ (role : Role) (platform : String),
        "" ∈ (tool.part.strings (role.target package)).effective platform ↔
          role = .cgoLibrary ∧ ∃ content file,
            IsMember read config tree dir package.name content file ∧
              (file.BareAlways read tool content ∨
                ∃ tags, config.platforms.get? platform = some tags ∧
                  file.BareOn read tool tags content)) ∧
      ∀ rule ∈ (package.generate config).rules, rule.kind = "cgo_library" →
        ("" ∈ rule.strings tool.key ↔
          ∃ platform, "" ∈ (tool.part.strings package.cgoLibrary).effective platform) := by
  refine ⟨fun _ _ _ hparse tool tags => CgoFlags.empty_mem_flags_iff hparse, fun tool =>
    ⟨fun role => ?_, fun role platform => ?_, fun rule hrule hkind => ?_⟩⟩
  · rw [mem_generic_flags_iff h]
    exact and_congr_right fun _ => exists_isMember_congr SourceFile.givenAlways_empty_iff
  · rw [mem_effective_flags_iff h]
    refine and_congr_right fun _ => exists_isMember_congr fun hread => ?_
    simp only [SourceFile.givenAlways_empty_iff hread, SourceFile.givenOn_empty_iff hread]
  · exact Role.mem_strings_flags_iff (Role.mem_generated_cgoLibrary hrule hkind)

/-- A directory with one file, which has a directive without arguments. -/
def bareDirective : FileTree :=
  oneGoFile "d/a.go" "package d\n\n// #cgo LDFLAGS:\nimport \"C\"\n"

theorem ofDirectory_emptyFlags_bareDirective :
    ∃ package errors,
      Package.ofDirectory Header.parse prefixedConfig bareDirective (.ofText "/repo/d") =
        .ok ⟨some package, errors⟩ ∧
      (∃ rule ∈ (package.generate prefixedConfig).rules, rule.kind = "cgo_library" ∧
        "" ∈ rule.strings "clinkopts") ∧
      ∃ content file,
        IsMember Header.parse prefixedConfig bareDirective (.ofText "/repo/d") package.name content
            file ∧
          file.BareAlways Header.parse .linker content := by
  have hany : ((Package.ofDirectory Header.parse prefixedConfig bareDirective
      (.ofText "/repo/d")).toOption.bind Analysis.package).any (fun package =>
        package.cgoLibrary.clinkopts.generic.contains "" &&
        (package.generate prefixedConfig).rules.any fun rule =>
          rule.kind == "cgo_library") = true := by decide +kernel
  simp only [Option.any_eq_true, Bool.and_eq_true, List.contains_iff_mem, List.any_eq_true,
    beq_iff_eq] at hany
  obtain ⟨package, hpackage, hgeneric, rule, hrule, hkind⟩ := hany
  obtain ⟨⟨_, errors⟩, hanalysis, rfl⟩ := Option.bind_eq_some_iff.mp hpackage
  have h := toOption_eq_some_iff.mp hanalysis
  obtain ⟨-, hflags⟩ :=
    ofDirectory_emptyFlags Header.parse prefixedConfig bareDirective (.ofText "/repo/d") h
  obtain ⟨hbare, -, hpasses⟩ := hflags .linker
  have heffective : "" ∈ package.cgoLibrary.clinkopts.effective "linux" :=
    PlatformStrings.mem_effective.mpr (.inl hgeneric)
  exact ⟨package, errors, h, ⟨rule, hrule, hkind, (hpasses rule hrule hkind).mpr ⟨_, heffective⟩⟩,
    ((hbare .cgoLibrary).mp hgeneric).2⟩

/-- A directive without arguments gives the empty flag. -/
theorem emptyFlag_of_bareDirective :
    ∃ flags, CgoFlags.parse "#cgo CFLAGS:" "/a" = .ok flags ∧ ⟨"", ""⟩ ∈ flags.copts :=
  ⟨⟨[⟨"", ""⟩], []⟩, by decide +kernel, List.mem_cons_self⟩

end Analysis

end GoBuildRules
