import GoBuildRules.Header.Basic
import GoBuildRules.Proofs.Package.Partition
import GoBuildRules.Proofs.Package.Removal

/-!
# How files for the C compiler are routed

A file for the C compiler is built with the files that import `"C"`, when there are any. What
counts is whether any Go file that has a record imports `"C"` (`usesCgo`): also one that is no part
of the package, because it holds documentation or declares another package (`IsOutside`).

* `gives_iff_gives`: the import of `"C"` matters only to files for the C compiler that take part in
  some build.
* `ofDirectory_without_outside`: so a directory without some of the outside files has the same
  package exactly when the import of `"C"` stays, or there are no such files for the C compiler.
-/

namespace GoBuildRules

open Package

namespace SourceFile

/-- Whether the file is for the C compiler once some Go file imports `"C"`. -/
def IsForC (file : SourceFile) : Prop :=
  file.category = .c ∨ file.category = .header ∨ file.category = .cAsm

/-- What the record of a file says that is no Go file. -/
structure IsPlain (file : SourceFile) : Prop where
  isTest : file.isTest = false
  isExternalTest : file.isExternalTest = false
  isCgo : file.isCgo = false

variable {platforms : PlatformTable} {file : SourceFile} {cgo : Bool} {fact : Fact}

theorem isPlain_of_ofOther {config : Config} {dir : Path} {name : String}
    {content : Option String} (hgo : categoryOf name ≠ .go)
    (h : ofOther config dir name content = .ok file) : file.IsPlain := by
  obtain ⟨category, constraints, rfl⟩ := exists_of_ofOther h
  refine ⟨?_, rfl, rfl⟩
  rw [categoryOf] at hgo
  simp [ofName, hgo]

/-- A file for the C compiler goes to the target of cgo exactly when a Go file imports `"C"`. -/
theorem role?_placeOf_eq_cgoLibrary_iff (hforC : file.IsForC) (hplain : file.IsPlain) :
    (placeOf file cgo).role? = some .cgoLibrary ↔ cgo = true := by
  obtain ⟨htest, hexternal, hcgo⟩ := hplain
  unfold placeOf
  rcases hforC with hcategory | hcategory | hcategory <;> cases cgo <;>
    simp [htest, hexternal, hcategory, hcgo, Place.role?]

theorem placeOf_ne_protos (hforC : file.IsForC) : placeOf file cgo ≠ .protos := by
  unfold placeOf
  rcases hforC with hcategory | hcategory | hcategory <;> cases cgo <;> grind

/-- The place of any other file does not depend on an import of `"C"`. -/
theorem placeOf_eq_of_not_isForC (h : ¬ file.IsForC) (a b : Bool) :
    placeOf file a = placeOf file b := by
  simp only [IsForC, not_or] at h
  obtain ⟨hc, hheader, hcAsm⟩ := h
  unfold placeOf
  cases hcategory : file.category <;> simp_all

/-- An import of `"C"` in some Go file matters only to files for the C compiler that take part in
some build. -/
theorem gives_iff_gives (h : ¬ (file.IsForC ∧ file.IsAdmitted platforms)) (a b : Bool) :
    file.Gives platforms a fact ↔ file.Gives platforms b fact := by
  -- A file for the C compiler that no build admits gives nothing, with and without the import.
  by_cases hforC : file.IsForC
  · have hadmitted : ¬ file.IsAdmitted platforms := fun hadmitted => h ⟨hforC, hadmitted⟩
    cases fact with
    | everywhere role part s =>
      have hno : ∀ cgo, ¬ file.Gives platforms cgo (.everywhere role part s) :=
        fun _ hgives => hadmitted (.inl hgives.2.2.1)
      exact iff_of_false (hno a) (hno b)
    | onPlatform role part name s =>
      have hno : ∀ cgo, ¬ file.Gives platforms cgo (.onPlatform role part name s) := by
        rintro _ ⟨-, -, halways | ⟨tags, hget, hon⟩⟩
        · exact hadmitted (.inl halways.1)
        · exact hadmitted (.inr ⟨name, tags, hget, hon.1⟩)
      exact iff_of_false (hno a) (hno b)
    | proto s =>
      have hno : ∀ cgo, ¬ file.Gives platforms cgo (.proto s) :=
        fun _ hgives => placeOf_ne_protos hforC hgives.2.1
      exact iff_of_false (hno a) (hno b)
    | generatedProto => exact Iff.rfl
  · rw [Gives, Gives, placeOf_eq_of_not_isForC hforC a b]

end SourceFile

namespace Analysis

theorem isPlain_of_record {read : HeaderReader} {config : Config} {tree : FileTree} {dir : Path}
    {entry : TreeEntry} {file : SourceFile} (hgo : isGo entry = false)
    (h : record read config tree dir entry = .ok file) : file.IsPlain := by
  have hcategory : SourceFile.categoryOf entry.name ≠ .go := by
    intro hcategory
    have hends : isGo entry = true := SourceFile.categoryOf_eq_go_iff.mp hcategory
    rw [hgo] at hends
    cases hends
  obtain ⟨content, hother⟩ := exists_ofOther_of_record hgo h
  exact SourceFile.isPlain_of_ofOther hcategory hother

/-- The record is that of a Go file outside the package: the file holds documentation, or it
declares another package. -/
def IsOutsideRecord (name : String) (file : SourceFile) : Prop :=
  file.packageName = documentationPackage ∨ file.packageName ≠ name

/-- The entry is a Go file of the directory that has a record and is outside the package `name`. -/
def IsOutside (read : HeaderReader) (config : Config) (tree : FileTree) (dir : Path)
    (name : String) (entry : TreeEntry) : Prop :=
  entry ∈ filesIn tree dir ∧ isGo entry = true ∧
    ∃ file, record read config tree dir entry = .ok file ∧ IsOutsideRecord name file

section Outside

variable {record : TreeEntry → Except FileError SourceFile} {config : Config} {dir : Path}
  {files gone : List TreeEntry} {entry : TreeEntry} {file : SourceFile} {name : String}
  {package : Package} {errors : List FileError}

/-- A file outside the package is no part of it. -/
theorem part?_of_isOutsideRecord (hgo : isGo entry = true) (hrecord : record entry = .ok file)
    (houtside : IsOutsideRecord name file) : part? record name entry = none := by
  rw [Option.eq_none_iff_forall_ne_some]
  intro part hpart
  obtain ⟨hpart_record, hpart_name⟩ := part?_eq_some_iff.mp hpart
  rw [hrecord, Except.ok.injEq] at hpart_record
  subst hpart_record
  rcases houtside with hdocumentation | hname
  · exact (hpart_name hgo).1 hdocumentation
  · exact hname (hpart_name hgo).2

/-- Files outside the package have no say in its name. -/
theorem selectName_remaining (h : selectName dir (goFiles record files) = .ok (some name))
    (hgone : ∀ entry ∈ gone, ∀ file, record entry = .ok file → IsOutsideRecord name file) :
    selectName dir (goFiles record (remaining gone files)) = .ok (some name) := by
  obtain ⟨hmem, hchosen⟩ := selectName_eq_some_iff.mp h
  refine selectName_eq_some_iff.mpr ⟨?_, hchosen.imp_left fun honly other hother => ?_⟩
  · obtain ⟨hdocumentation, entry, hentry, hgo, file, hrecord, hname⟩ :=
      mem_packageNames_goFiles_iff.mp hmem
    have hremains : entry ∉ gone := fun hmem =>
      (hgone entry hmem file hrecord).elim (hname ▸ hdocumentation) fun hne => hne hname
    exact mem_packageNames_goFiles_iff.mpr ⟨hdocumentation, entry,
      mem_remaining.mpr ⟨hentry, hremains⟩, hgo, file, hrecord, hname⟩
  · obtain ⟨hdocumentation, entry, hentry, hdeclared⟩ := mem_packageNames_goFiles_iff.mp hother
    exact honly other (mem_packageNames_goFiles_iff.mpr ⟨hdocumentation, entry,
      (mem_remaining.mp hentry).1, hdeclared⟩)

/-- Whether a file for the C compiler takes part in some build. -/
def BuildsC (record : TreeEntry → Except FileError SourceFile) (config : Config)
    (files : List TreeEntry) : Prop :=
  ∃ entry ∈ files, ∃ file, record entry = .ok file ∧ file.IsForC ∧
    file.IsAdmitted config.platforms

/-- The files give the same facts without those outside the package, as long as the import of `"C"`
stays or there is no file that it matters to. -/
theorem gives_remaining_iff (hgone : ∀ entry ∈ gone, part? record name entry = none)
    (h : usesCgo record (remaining gone files) = usesCgo record files ∨
      ¬ BuildsC record config files) (fact : Fact) :
    (∃ entry ∈ remaining gone files, ∃ file, part? record name entry = some file ∧
        file.Gives config.platforms (usesCgo record (remaining gone files)) fact) ↔
      ∃ entry ∈ files, ∃ file, part? record name entry = some file ∧
        file.Gives config.platforms (usesCgo record files) fact := by
  have hgives : ∀ entry ∈ files, ∀ file, part? record name entry = some file →
      (file.Gives config.platforms (usesCgo record (remaining gone files)) fact ↔
        file.Gives config.platforms (usesCgo record files) fact) := by
    intro entry hentry file hpart
    rcases h with hcgo | hnone
    · rw [hcgo]
    · refine SourceFile.gives_iff_gives (fun hboth => hnone ?_) _ _
      exact ⟨entry, hentry, file, (part?_eq_some_iff.mp hpart).1, hboth⟩
  rw [exists_part_remaining_iff hgone]
  constructor
  · rintro ⟨entry, hentry, file, hpart, hfact⟩
    exact ⟨entry, hentry, file, hpart, (hgives entry hentry file hpart).mp hfact⟩
  · rintro ⟨entry, hentry, file, hpart, hfact⟩
    exact ⟨entry, hentry, file, hpart, (hgives entry hentry file hpart).mpr hfact⟩

theorem isGo_eq_false_of_isForC (h : file.IsRecord config dir entry.name) (hforC : file.IsForC) :
    isGo entry = false := by
  rw [isGo, ← Bool.not_eq_true, ← SourceFile.categoryOf_eq_go_iff]
  intro hgo
  rcases h.category with ⟨hcategory, -⟩ | ⟨hignored, -⟩
  · rw [SourceFile.IsForC, hcategory, hgo] at hforC
    exact absurd hforC (by decide)
  · rw [SourceFile.IsForC, hignored] at hforC
    exact absurd hforC (by decide)

theorem isTaken_of_isForC (h : file.IsRecord config dir entry.name) (hforC : file.IsForC) :
    file.IsTaken := by
  refine ⟨?_, h.not_refused⟩
  rcases hforC with hcategory | hcategory | hcategory <;> rw [hcategory] <;> decide

/-- Files that are taken are for the C compiler together with the files whose names read alike. -/
theorem isForC_of_name_eq {other : TreeEntry} {part : SourceFile}
    (h : file.IsRecord config dir entry.name) (hforC : file.IsForC)
    (hpart : part.IsRecord config dir other.name) (htaken : part.IsTaken)
    (hname : other.name = entry.name) : part.IsForC := by
  have hcategory : ∀ {name : String} {file : SourceFile}, file.IsRecord config dir name →
      file.IsTaken → file.category = SourceFile.categoryOf name := fun hrecord htaken =>
    hrecord.isTaken_or_passedOver.elim And.right fun hnot => absurd htaken hnot.1
  have heq : part.category = file.category := by
    rw [hcategory hpart htaken, hname, hcategory h (isTaken_of_isForC h hforC)]
  rwa [SourceFile.IsForC, heq]

/-- The name of a file for the C compiler is a source of the target of cgo exactly when some Go file
that has a record imports `"C"`, and a file of the name takes part in some build. -/
theorem IsAnalysis.mem_cgoLibrary_iff (h : IsAnalysis record config dir files package errors)
    (hplain : ∀ entry file, isGo entry = false → record entry = .ok file → file.IsPlain)
    (hrecord : record entry = .ok file) (hforC : file.IsForC) :
    entry.name ∈ package.cgoLibrary.sources.toList ↔ usesCgo record files = true ∧
      ∃ other ∈ files, other.name = entry.name ∧ ∃ part, record other = .ok part ∧
        part.IsForC ∧ part.IsAdmitted config.platforms := by
  have hsources : entry.name ∈ (Role.cgoLibrary.target package).sources.toList ↔ _ :=
    h.mem_sources_iff
  refine hsources.trans ?_
  -- The name may be that of several files, which are all for the C compiler when they are taken.
  constructor
  · rintro ⟨other, hother, hname, part, ⟨hpart, htaken, hrole⟩, hadmitted⟩
    have hpart_record := (part?_eq_some_iff.mp hpart).1
    have hpart_forC := isForC_of_name_eq (h.isRecord hrecord) hforC (h.isRecord hpart_record)
      htaken hname
    have hpart_plain := hplain other part
      (isGo_eq_false_of_isForC (h.isRecord hpart_record) hpart_forC) hpart_record
    exact ⟨(SourceFile.role?_placeOf_eq_cgoLibrary_iff hpart_forC hpart_plain).mp hrole, other,
      hother, hname, part, hpart_record, hpart_forC, hadmitted⟩
  · rintro ⟨hcgo, other, hother, hname, part, hpart_record, hpart_forC, hadmitted⟩
    have hgo := isGo_eq_false_of_isForC (h.isRecord hpart_record) hpart_forC
    have hpart : part? record package.name other = some part :=
      part?_eq_some_iff.mpr ⟨hpart_record, fun hgo_true => absurd hgo_true (by simp [hgo])⟩
    have hrole := (SourceFile.role?_placeOf_eq_cgoLibrary_iff hpart_forC
      (hplain other part hgo hpart_record)).mpr hcgo
    exact ⟨other, hother, hname, part, ⟨hpart,
      isTaken_of_isForC (h.isRecord hpart_record) hpart_forC, hrole⟩, hadmitted⟩

/-- If the package stays the same without some files outside it, then so does the import of `"C"`,
unless there is no file that it matters to. -/
theorem usesCgo_remaining_eq (h : IsAnalysis record config dir files package errors)
    {errors' : List FileError}
    (hrest : IsAnalysis record config dir (remaining gone files) package errors')
    (hgo : ∀ entry ∈ gone, isGo entry = true)
    (hplain : ∀ entry file, isGo entry = false → record entry = .ok file → file.IsPlain)
    (hbuilds : BuildsC record config files) :
    usesCgo record (remaining gone files) = usesCgo record files := by
  obtain ⟨entry, hentry, file, hrecord, hforC, hadmitted⟩ := hbuilds
  have hother := isGo_eq_false_of_isForC (h.isRecord hrecord) hforC
  have hremains : entry ∉ gone := fun hmem => absurd (hgo entry hmem) (by simp [hother])
  -- The target of that file shows in either directory whether the import is there.
  have hbefore := h.mem_cgoLibrary_iff hplain hrecord hforC
  have hafter := hrest.mem_cgoLibrary_iff hplain hrecord hforC
  rw [and_iff_left ⟨entry, hentry, rfl, file, hrecord, hforC, hadmitted⟩] at hbefore
  rw [and_iff_left ⟨entry, mem_remaining.mpr ⟨hentry, hremains⟩, rfl, file, hrecord, hforC,
    hadmitted⟩] at hafter
  exact Bool.eq_iff_iff.mpr (hafter.symm.trans hbefore)

end Outside

/-! ## The directory -/

/-- **Which Go files route the files for the C compiler.** These are sources of the target of cgo
exactly when some Go file that has a record imports `"C"`. So taking Go files outside the package
away from the directory keeps the package exactly when `"C"` is still imported if it was, or no file
for the C compiler takes part in any build; and then it only takes away the errors about them. -/
theorem ofDirectory_without_outside (read : HeaderReader) (config : Config) (tree : FileTree)
    (dir : Path) (gone : List TreeEntry) {package : Package} {errors : List FileError}
    (h : Package.ofDirectory read config tree dir = .ok ⟨some package, errors⟩)
    (hgone : ∀ entry ∈ gone, IsOutside read config tree dir package.name entry) :
    let record := record read config tree dir
    let files := filesIn tree dir
    let rest := Package.ofDirectory read config (tree.without gone) dir
    let keepsRoutes := usesCgo record (remaining gone files) = usesCgo record files ∨
      ¬ BuildsC record config files
    (∀ entry ∈ files, ∀ file, record entry = .ok file → file.IsForC →
      (entry.name ∈ package.cgoLibrary.sources.toList ↔ usesCgo record files = true ∧
        ∃ other ∈ files, other.name = entry.name ∧ ∃ part, record other = .ok part ∧
          part.IsForC ∧ part.IsAdmitted config.platforms)) ∧
      ((∃ errors', rest = .ok ⟨some package, errors'⟩) → keepsRoutes) ∧
      (keepsRoutes → ∃ reports, IsReported files errors reports ∧
        rest = .ok (withoutReports gone reports ⟨some package, errors⟩)) := by
  obtain ⟨entries, hlist, hselected, hconclude⟩ := exists_conclude_of_ofDirectory h
  rw [filesIn_eq hlist]
  have hreading := isReading_record read config tree dir
  have hascending := pairwise_regular hlist
  have hmem : ∀ entry ∈ gone, entry ∈ regular entries :=
    fun entry hentry => filesIn_eq hlist ▸ (hgone entry hentry).1
  -- The files that go have no say in the name of the package, and they are no parts of it.
  have houtside : ∀ entry ∈ gone, ∀ file, record read config tree dir entry = .ok file →
      IsOutsideRecord package.name file := by
    intro entry hentry file hrecord
    obtain ⟨-, -, other, hother, hout⟩ := hgone entry hentry
    rw [hrecord, Except.ok.injEq] at hother
    exact hother ▸ hout
  have hstart : ∀ fact, ¬ (emptyPackage config dir entries package.name).Holds fact :=
    not_holds_start _ _ _ _
  have hanalysis : IsAnalysis (record read config tree dir) config dir (regular entries) package
      errors := isAnalysis_of_conclude hreading hascending rfl hstart hconclude
  have hplain : ∀ entry file, isGo entry = false →
      record read config tree dir entry = .ok file → file.IsPlain :=
    fun _ _ hgo hrecord => isPlain_of_record hgo hrecord
  refine ⟨fun entry _ file hrecord hforC => hanalysis.mem_cgoLibrary_iff hplain hrecord hforC, ?_⟩
  rw [ofDirectory_without_eq_map_conclude hlist hmem, selectName_remaining hselected houtside]
  constructor
  · rintro ⟨errors', hsame⟩
    have hrest := isAnalysis_of_conclude hreading (hascending.filter _) rfl hstart
      (Except.ok.inj hsame)
    -- Were the import gone, a file for the C compiler that is built would change its target.
    exact Classical.or_iff_not_imp_right.mpr fun hbuilds => usesCgo_remaining_eq hanalysis hrest
      (fun entry hentry => (hgone entry hentry).2.1) hplain (not_not.mp hbuilds)
  · intro hcgo
    have hpart : ∀ entry ∈ gone, part? (record read config tree dir) package.name entry = none := by
      intro entry hentry
      obtain ⟨-, hgo, file, hrecord, hout⟩ := hgone entry hentry
      exact part?_of_isOutsideRecord hgo hrecord hout
    have hreported : IsReported (regular entries) errors
        (reports (record read config tree dir) package.name (regular entries)) :=
      hanalysis.errors_eq ▸ hreading.isReported package.name (regular entries)
    refine ⟨_, hreported, ?_⟩
    rw [← hconclude, ← conclude_remaining rfl hstart (gives_remaining_iff hpart hcgo)]
    rfl

/-- The file `doc.go` with the text. -/
def docFile (text : String) : TreeEntry :=
  ⟨.ofText "/repo/d/doc.go", .file text.toUTF8.toList⟩

/-- A directory with a file `doc.go`, a Go file and a file for the C compiler. -/
def documented (text : String) : FileTree :=
  let empty := FileTree.empty (.ofText "/repo")
  ((empty.add (docFile text).path (docFile text).node).add (.ofText "d/lib.go")
    (.file "package lib\n".toUTF8.toList)).add (.ofText "d/x.c") (.file [])

/-- A configuration with two platforms. -/
def twoSystemsConfig : Config :=
  { goPrefix := "", repoRoot := .ofText "/repo", platforms := Target.twoSystems }

theorem isOutside_docFile {text : String} {name : String} (hfile : isGo (docFile text) = true)
    (hmem : docFile text ∈ filesIn (documented text) (.ofText "/repo/d"))
    (hname : (record Header.parse twoSystemsConfig (documented text) (.ofText "/repo/d")
      (docFile text)).toOption.map SourceFile.packageName = some documentationPackage) :
    IsOutside Header.parse twoSystemsConfig (documented text) (.ofText "/repo/d") name
      (docFile text) := by
  obtain ⟨file, hrecord, hdocumentation⟩ := Option.map_eq_some_iff.mp hname
  exact ⟨hmem, hfile, file, toOption_eq_some_iff.mp hrecord, .inl hdocumentation⟩

theorem ofDirectory_without_outside_documented :
    let tree := documented "package documentation\n"
    let gone := [docFile "package documentation\n"]
    let dir : Path := .ofText "/repo/d"
    ∃ package errors,
      Package.ofDirectory Header.parse twoSystemsConfig tree dir = .ok ⟨some package, errors⟩ ∧
      (∀ entry ∈ gone, IsOutside Header.parse twoSystemsConfig tree dir package.name entry) ∧
      let record := record Header.parse twoSystemsConfig tree dir
      let files := filesIn tree dir
      let rest := Package.ofDirectory Header.parse twoSystemsConfig (tree.without gone) dir
      let keepsRoutes := usesCgo record (remaining gone files) = usesCgo record files ∨
        ¬ BuildsC record twoSystemsConfig files
      (∀ entry ∈ files, ∀ file, record entry = .ok file → file.IsForC →
        (entry.name ∈ package.cgoLibrary.sources.toList ↔ usesCgo record files = true ∧
          ∃ other ∈ files, other.name = entry.name ∧ ∃ part, record other = .ok part ∧
            part.IsForC ∧ part.IsAdmitted Target.twoSystems)) ∧
        ((∃ errors', rest = .ok ⟨some package, errors'⟩) → keepsRoutes) ∧
        (keepsRoutes → ∃ reports, IsReported files errors reports ∧
          rest = .ok (withoutReports gone reports ⟨some package, errors⟩)) := by
  intro tree gone dir
  have hsome : ((Package.ofDirectory Header.parse twoSystemsConfig tree dir).toOption.bind
      Analysis.package).isSome = true := by decide +kernel
  obtain ⟨package, hpackage⟩ := Option.isSome_iff_exists.mp hsome
  obtain ⟨⟨_, errors⟩, hanalysis, rfl⟩ := Option.bind_eq_some_iff.mp hpackage
  have h := toOption_eq_some_iff.mp hanalysis
  have hgone : ∀ entry ∈ gone,
      IsOutside Header.parse twoSystemsConfig tree dir package.name entry := by
    refine List.forall_mem_singleton.mpr (isOutside_docFile ?_ ?_ ?_) <;> decide +kernel
  exact ⟨package, errors, h, hgone,
    ofDirectory_without_outside Header.parse twoSystemsConfig tree dir gone h hgone⟩

/-- A file outside the package can decide how the others are routed: a file that only holds
documentation and imports `"C"` has the file for the C compiler built. -/
theorem ofDirectory_documented_importing_c :
    let text := "package documentation\n\nimport \"C\"\n"
    let dir : Path := .ofText "/repo/d"
    ∃ package errors,
      Package.ofDirectory Header.parse twoSystemsConfig (documented text) dir =
        .ok ⟨some package, errors⟩ ∧
      IsOutside Header.parse twoSystemsConfig (documented text) dir package.name (docFile text) ∧
      ¬ ∃ errors', Package.ofDirectory Header.parse twoSystemsConfig
        ((documented text).without [docFile text]) dir = .ok ⟨some package, errors'⟩ := by
  intro text dir
  have hsome : ((Package.ofDirectory Header.parse twoSystemsConfig (documented text)
      dir).toOption.bind Analysis.package).isSome = true := by decide +kernel
  have hne : (Package.ofDirectory Header.parse twoSystemsConfig
        ((documented text).without [docFile text]) dir).toOption.bind Analysis.package ≠
      (Package.ofDirectory Header.parse twoSystemsConfig (documented text) dir).toOption.bind
        Analysis.package := by decide +kernel
  obtain ⟨package, hpackage⟩ := Option.isSome_iff_exists.mp hsome
  obtain ⟨⟨_, errors⟩, hanalysis, rfl⟩ := Option.bind_eq_some_iff.mp hpackage
  refine ⟨package, errors, toOption_eq_some_iff.mp hanalysis, ?_, ?_⟩
  · apply isOutside_docFile <;> decide +kernel
  · rintro ⟨errors', hwithout⟩
    rw [hpackage, hwithout] at hne
    exact hne rfl

end Analysis

end GoBuildRules
