import GoBuildRules.Proofs.Cgo.BareDirective
import GoBuildRules.Proofs.Header.Documentation
import GoBuildRules.Proofs.SourceFile.Record

/-!
# Where the flags of a file come from

A file has the flags of the comments that document its imports of `"C"`, and no others
(`SourceFile.mem_given_iff_of_ofGo`). These comments stand directly above the imports
(`Header.comments_directly_above`). A file with flags imports `"C"`
(`SourceFile.isCgo_of_mem_given`), so it is for the cgo library (`SourceFile.placeOf_of_isCgo`).
-/

namespace GoBuildRules

/-- The part of a target that holds the flags for the tool. -/
def Tool.part : Tool → Target.Part
  | compiler => .copts
  | linker => .clinkopts

/-- The text documents an import of `"C"`. -/
def Header.IsCgoDoc (header : Header) (doc : String) : Prop :=
  ∃ spec ∈ header.imports, spec.path = SourceFile.cgoImport ∧ spec.doc = some doc

namespace SourceFile

/-- The imports of `"C"` in a header. -/
def cgoImports (header : Header) : List ImportSpec :=
  header.imports.filter fun spec => spec.path = cgoImport

/-- The flags of the comments that document the imports of `"C"`, one comment after the other. -/
def cgoFlags (dir : Path) (header : Header) : Except DirectiveError (List CgoFlags) :=
  ((cgoImports header).filterMap ImportSpec.doc).mapM fun doc => CgoFlags.parse doc dir.text

theorem mem_docs_cgoImports_iff {header : Header} {doc : String} :
    doc ∈ (cgoImports header).filterMap ImportSpec.doc ↔ header.IsCgoDoc doc := by
  simp [cgoImports, Header.IsCgoDoc, and_assoc]

variable {read : HeaderReader} {config : Config} {dir : Path} {name content : String}
  {file : SourceFile} {header : Header} {doc : String} {tool : Tool} {opt : TaggedOpt}

/-- What the record of a Go file has from the imports of `"C"`. -/
theorem exists_flags_of_ofGo (h : ofGo read config dir name content = .ok file)
    (hread : read content = .ok header) :
    ∃ flags, cgoFlags dir header = .ok flags ∧
      (∀ tool : Tool, tool.part.given file = flags.flatMap tool.flags) ∧
      file.isCgo = !(cgoImports header).isEmpty := by
  simp only [ofGo, hread, List.partition_eq_filter_filter] at h
  split at h
  · cases h
  · split at h
    · cases h
    · rename_i flags hflags
      obtain rfl := Except.ok.inj h
      refine ⟨flags, hflags, fun tool => ?_, rfl⟩
      cases tool <;> rfl

/-- All comments above imports of `"C"` are read. -/
theorem exists_parse_of_ofGo (h : ofGo read config dir name content = .ok file)
    (hread : read content = .ok header) (hdoc : header.IsCgoDoc doc) :
    ∃ flags, CgoFlags.parse doc dir.text = .ok flags := by
  obtain ⟨all, hall, -, -⟩ := exists_flags_of_ofGo h hread
  obtain ⟨flags, -, hflags⟩ := Fold.exists_mem_of_mapM hall (mem_docs_cgoImports_iff.mpr hdoc)
  exact ⟨flags, hflags⟩

/-- The flags of a Go file are those of the comments above its imports of `"C"`. -/
theorem mem_given_iff_of_ofGo (h : ofGo read config dir name content = .ok file)
    (hread : read content = .ok header) :
    opt ∈ tool.part.given file ↔ ∃ doc flags, header.IsCgoDoc doc ∧
      CgoFlags.parse doc dir.text = .ok flags ∧ opt ∈ tool.flags flags := by
  obtain ⟨all, hall, hgiven, -⟩ := exists_flags_of_ofGo h hread
  rw [hgiven, List.mem_flatMap]
  constructor
  · rintro ⟨flags, hflags, hopt⟩
    obtain ⟨doc, hdoc, hparse⟩ := Fold.exists_of_mem_mapM hall hflags
    exact ⟨doc, flags, mem_docs_cgoImports_iff.mp hdoc, hparse, hopt⟩
  · rintro ⟨doc, flags, hdoc, hparse, hopt⟩
    obtain ⟨own, hown, hread⟩ := Fold.exists_mem_of_mapM hall (mem_docs_cgoImports_iff.mpr hdoc)
    obtain rfl := Except.ok.inj (hread.symm.trans hparse)
    exact ⟨own, hown, hopt⟩

theorem exists_header_of_ofGo (h : ofGo read config dir name content = .ok file) :
    ∃ header, read content = .ok header := by
  cases hread : read content with
  | error e =>
    simp only [ofGo, hread] at h
    cases h
  | ok header => exact ⟨header, rfl⟩

/-- A file with flags imports `"C"`. -/
theorem isCgo_of_mem_given (h : ofGo read config dir name content = .ok file)
    (hopt : opt ∈ tool.part.given file) : file.isCgo = true := by
  obtain ⟨header, hread⟩ := exists_header_of_ofGo h
  obtain ⟨doc, -, hdoc, -, -⟩ := (mem_given_iff_of_ofGo h hread).mp hopt
  obtain ⟨-, -, -, hisCgo⟩ := exists_flags_of_ofGo h hread
  rw [hisCgo, Bool.not_eq_true', List.isEmpty_eq_false_iff]
  intro hnil
  have hmem := mem_docs_cgoImports_iff.mpr hdoc
  rw [hnil] at hmem
  cases hmem

/-- A file that imports `"C"` and is not refused goes to the cgo library. -/
theorem placeOf_of_isCgo (hcgo : file.isCgo = true)
    (hrefused : ¬ ((file.isExternalTest || file.isTest) && file.isCgo) = true) (cgo : Bool) :
    Package.placeOf file cgo = .cgoLibrary := by
  rw [hcgo, Bool.and_true, Bool.or_eq_true, not_or] at hrefused
  unfold Package.placeOf
  rw [if_neg hrefused.1, if_neg hrefused.2]
  cases file.category <;> cases cgo <;> simp [hcgo]

/-- Other files have no flags. -/
theorem given_of_ofOther {text : Option String} (h : ofOther config dir name text = .ok file) :
    tool.part.given file = [] := by
  obtain ⟨category, constraints, rfl⟩ := exists_of_ofOther h
  cases tool <;> rfl

end SourceFile

namespace Header

/-- **Comments that document imports stand directly above them.** The tokens of a source text with a
header are those of the header and others, in the order in which they stand in the text and with all
comments between them. The imports of the header come one by one from the imports among these
tokens. What documents an import are the lines of the run of comments that documents its tokens;
where there is no such run, nothing does. The flags of the file come from the runs that document
imports of `"C"`, so no other comment gives any. -/
theorem comments_directly_above {source : String} {header : Header}
    (h : parse source = .ok header) :
    ∃ (tokens : HeaderTokens) (rest : List Entry),
      Reads .start source.toList (tokens.entries ++ rest) ∧
      header.packageName = tokens.packageName ∧
      List.Forall₂ (fun spec origin => IsOrigin spec origin.1 origin.2) header.imports
        tokens.imports ∧
      ∀ config dir name file, SourceFile.ofGo parse config dir name source = .ok file →
        ∀ (tool : Tool) (opt : TaggedOpt), opt ∈ tool.part.given file ↔
          ∃ origin ∈ tokens.imports, origin.2.text = SourceFile.cgoImport ∧
            ∃ run flags, Documents run origin.1 origin.2 ∧
              CgoFlags.parse (docText run) dir.text = .ok flags ∧ opt ∈ tool.flags flags := by
  obtain ⟨tokens, rest, hreads, hname, horigins⟩ := exists_origins h
  refine ⟨tokens, rest, hreads, hname, horigins, fun config dir name file hfile tool opt => ?_⟩
  rw [SourceFile.mem_given_iff_of_ofGo hfile h]
  constructor
  · rintro ⟨doc, flags, hdoc, hparse, hopt⟩
    obtain ⟨origin, horigin, hpath, run, hrun, rfl⟩ := (exists_spec_iff horigins).mp hdoc
    exact ⟨origin, horigin, hpath, run, flags, hrun, hparse, hopt⟩
  · rintro ⟨origin, horigin, hpath, run, flags, hrun, hparse, hopt⟩
    exact ⟨docText run, flags, (exists_spec_iff horigins).mpr ⟨origin, horigin, hpath, run, hrun,
      rfl⟩, hparse, hopt⟩

theorem comments_directly_above_detached :
    let source := "package d\n// #cgo CFLAGS: -g\n\n// #cgo LDFLAGS: -lm\nimport \"C\"\n"
    let config : Config := { goPrefix := "", repoRoot := .ofText "/repo" }
    let dir : Path := .ofText "/repo/d"
    ∃ file, SourceFile.ofGo parse config dir "a.go" source = .ok file ∧ file.copts = [] ∧
      ∃ run d i flags, Documents run d i ∧ i.text = "C" ∧
        CgoFlags.parse (docText run) dir.text = .ok flags ∧ ⟨"", "-lm"⟩ ∈ flags.clinkopts := by
  intro source config dir
  have h : parse source = .ok ⟨"d", [⟨"C", some " #cgo LDFLAGS: -lm"⟩]⟩ := by decide +kernel
  have hany : (SourceFile.ofGo parse config dir "a.go" source).toOption.any (fun file =>
      file.copts.isEmpty && file.clinkopts.contains ⟨"", "-lm"⟩) = true := by decide +kernel
  cases hfile : SourceFile.ofGo parse config dir "a.go" source with
  | error e =>
    rw [hfile] at hany
    cases hany
  | ok file =>
    rw [hfile] at hany
    obtain ⟨hcopts, hopt⟩ := Bool.and_eq_true_iff.mp hany
    obtain ⟨tokens, -, -, -, -, hflags⟩ := comments_directly_above h
    obtain ⟨⟨d, i⟩, -, htext, run, flags, hrun, hparse, hmem⟩ :=
      (hflags config _ _ file hfile .linker ⟨"", "-lm"⟩).mp (List.contains_iff_mem.mp hopt)
    exact ⟨file, rfl, List.isEmpty_iff.mp hcopts, run, d, i, flags, hrun, htext, hparse, hmem⟩

end Header

end GoBuildRules
