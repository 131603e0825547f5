import GoBuildRules.Proofs.Label.Directory

/-!
# Imports of the repository

Whether an import leads into the repository is asked in two places. A label is local or external
(`Label.isLocal`), and the record of a Go file leaves out the imports of the standard library, which
are told from those of the repository by the prefix. Both answers are described by the prefix
(`LiesIn`, `LiesBelow`) and the first component of a path (`host`).

* `fault?_eq_none_iff`: the paths that have a label are those of valid components.
* `liesIn_iff_prefix`: the local ones are those whose first components are the prefix.
* `resolve_of_liesIn`, `resolve_of_not_liesIn`: the labels of both kinds.
* `isLocal_agrees_with_imports`: labels and records agree everywhere but at the prefix itself.
-/

namespace GoBuildRules

namespace Label

/-- Whether a label is one of the repository in which it is used. -/
def isLocal : Label → Bool
  | external _ _ => false
  | _ => true

/-- The path leads to a package strictly below the root of the repository with the prefix. -/
def LiesBelow (goPrefix path : String) : Prop :=
  goPrefix ≠ "" ∧ ∃ rest, path = goPrefix ++ "/" ++ rest

/-- The path leads to a package of the repository with the prefix. -/
def LiesIn (goPrefix path : String) : Prop :=
  goPrefix ≠ "" ∧ (path = goPrefix ∨ ∃ rest, path = goPrefix ++ "/" ++ rest)

/-- The first component of an import path. -/
def host (path : String) : String :=
  (Text.splitAt '/' path).headD ""

variable {goPrefix path fromRel rel : String} {names : List String}

theorem exists_eq_append_iff {start : String} :
    (∃ rest, path = start ++ rest) ↔ Text.startsWith start path = true := by
  rw [Text.startsWith, List.isPrefixOf_iff_prefix]
  constructor
  · rintro ⟨rest, rfl⟩
    exact ⟨rest.toList, (String.toList_append).symm⟩
  · rintro ⟨cs, hcs⟩
    exact ⟨String.ofList cs, String.toList_inj.mp (by simpa using hcs.symm)⟩

instance (goPrefix path : String) : Decidable (LiesBelow goPrefix path) :=
  decidable_of_iff (goPrefix ≠ "" ∧ Text.startsWith (goPrefix ++ "/") path = true)
    (and_congr_right fun _ => exists_eq_append_iff.symm)

instance (goPrefix path : String) : Decidable (LiesIn goPrefix path) :=
  decidable_of_iff
    (goPrefix ≠ "" ∧ (path = goPrefix ∨ Text.startsWith (goPrefix ++ "/") path = true))
    (and_congr_right fun _ => or_congr_right exists_eq_append_iff.symm)

theorem LiesBelow.ne (h : LiesBelow goPrefix path) : path ≠ goPrefix := by
  obtain ⟨-, rest, rfl⟩ := h
  intro heq
  have hlength := congrArg String.length heq
  simp only [String.length_append] at hlength
  have hslash : "/".length = 1 := rfl
  omega

/-! ## Components -/

/-- Nothing is wrong with a path exactly when its components are valid. -/
theorem fault?_eq_none_iff : fault? path = none ↔ IsImportPath path := by
  refine ⟨fun h component hcomponent => ?_, IsImportPath.fault?_eq_none⟩
  rw [fault?] at h
  split at h
  · cases h
  · rename_i hempty
    simp only [List.any_eq_true, String.isEmpty_iff, not_exists, not_and] at hempty
    rw [Option.map_eq_none_iff, List.find?_eq_none] at h
    refine ⟨hempty component hcomponent, fun c hc => ?_⟩
    have hallowed : isAllowed c = true := by
      simpa using h c (Text.mem_of_mem_splitAt hcomponent hc)
    have hslash : c ≠ '/' := fun heq =>
      Text.notMem_of_mem_splitAt hcomponent (heq ▸ hc)
    simpa [isAllowed, IsPathChar, hslash] using hallowed

/-- A local path is an import path made of the prefix and the names that lead to the package. -/
theorem exists_names_of_liesIn (h : LiesIn goPrefix path) (hpath : IsImportPath path) :
    ∃ names, (∀ name ∈ names, IsPathComponent name) ∧ path = importPath goPrefix names := by
  rcases h with ⟨-, rfl | ⟨rest, rfl⟩⟩
  · exact ⟨[], by simp, (String.intercalate_singleton).symm⟩
  · have hjoin : goPrefix ++ "/" ++ rest = importPath goPrefix (Text.splitAt '/' rest) := by
      have hrest := Text.intercalate_splitAt '/' rest
      obtain ⟨first, others, hsplit⟩ := List.exists_cons_of_ne_nil (Text.splitAt_ne_nil '/' rest)
      rw [hsplit] at hrest ⊢
      rw [importPath, String.intercalate_cons_cons, ← hrest]
    refine ⟨Text.splitAt '/' rest, fun name hname => hpath name ?_, hjoin⟩
    have htext : (goPrefix ++ "/" ++ rest).toList = goPrefix.toList ++ '/' :: rest.toList := by simp
    rw [Text.splitAt, htext, List.splitOn_append_cons_self, List.map_append]
    exact List.mem_append_right _ hname

/-- A path is local exactly when the components of the prefix are its first ones. -/
theorem liesIn_iff_prefix (hpath : IsImportPath path) :
    LiesIn goPrefix path ↔ Text.splitAt '/' goPrefix <+: Text.splitAt '/' path := by
  constructor
  · intro h
    obtain ⟨names, hnames, rfl⟩ := exists_names_of_liesIn h hpath
    exact ⟨names, (splitAt_importPath hnames).symm⟩
  · rintro ⟨names, hsplit⟩
    have hnames : ∀ name ∈ names, IsPathComponent name := fun name hname =>
      hpath name (hsplit ▸ List.mem_append_right _ hname)
    -- Components that are cut off at slashes join to the text again.
    have hpath_eq : path = importPath goPrefix names := by
      rw [← Text.intercalate_splitAt '/' path, ← hsplit, ← splitAt_importPath hnames,
        Text.intercalate_splitAt]
    have hne : goPrefix ≠ "" := by
      rintro rfl
      exact (hpath "" (hsplit ▸ List.mem_append_left _ (by decide))).ne_empty rfl
    cases names with
    | nil => exact ⟨hne, .inl (hpath_eq.trans String.intercalate_singleton)⟩
    | cons name names => exact ⟨hne, .inr ⟨_, hpath_eq.trans String.intercalate_cons_cons⟩⟩

/-! ## Labels -/

theorem localPath?_eq_none_iff : localPath? goPrefix path = none ↔ ¬ LiesIn goPrefix path := by
  rw [localPath?, LiesIn]
  by_cases hempty : goPrefix = ""
  · simp [hempty]
  · rw [if_neg (by simpa using hempty)]
    by_cases heq : path = goPrefix
    · simp [heq, hempty]
    · rw [if_neg heq, Option.eq_none_iff_forall_ne_some]
      simp [Text.dropStart?_eq_some_iff, heq, hempty]

/-- A path that is not local leads to the repository that its first components name. -/
theorem resolve_of_not_liesIn (hpath : IsImportPath path) (h : ¬ LiesIn goPrefix path) :
    resolve goPrefix path fromRel = .ok (external
      (repositoryName ((Text.splitAt '/' path).take 3))
      ("/".intercalate ((Text.splitAt '/' path).drop 3))) := by
  rw [resolve, hpath.fault?_eq_none, localPath?_eq_none_iff.mpr h]
  rfl

/-- A local path leads to the package whose path is what follows the prefix. -/
theorem resolve_of_liesIn (hpath : IsImportPath path) (h : LiesIn goPrefix path) :
    ∃ names, (∀ name ∈ names, IsPathComponent name) ∧ path = importPath goPrefix names ∧
      resolve goPrefix path fromRel =
        .ok (if "/".intercalate names = fromRel then here
          else inRepository ("/".intercalate names)) := by
  obtain ⟨names, hnames, rfl⟩ := exists_names_of_liesIn h hpath
  refine ⟨names, hnames, rfl, ?_⟩
  rw [resolve, hpath.fault?_eq_none, localPath?_importPath h.1]

/-- A path that can be resolved has a local label exactly when it is local. -/
theorem exists_label_isLocal_iff (hpath : IsImportPath path) (fromRel : String) :
    ∃ label, resolve goPrefix path fromRel = .ok label ∧
      (label.isLocal = true ↔ LiesIn goPrefix path) := by
  by_cases h : LiesIn goPrefix path
  · obtain ⟨names, -, -, hresolve⟩ := resolve_of_liesIn hpath h
    refine ⟨_, hresolve, iff_of_true ?_ h⟩
    split <;> rfl
  · exact ⟨_, resolve_of_not_liesIn hpath h, iff_of_false nofun h⟩

/-! ## Imports of records -/

theorem toList_host (path : String) : (host path).toList = path.toList.takeWhile (· != '/') := by
  rw [host, Text.splitAt, List.headD_eq_head?_getD, List.head?_map, Text.head?_splitOn,
    Option.map_some, Option.getD_some, String.toList_ofList]

/-- An import is not one of the standard library when its first component has a dot, or when it
lies below the prefix. -/
theorem isStandardImport_eq_false_iff : isStandardImport goPrefix path = false ↔
    LiesBelow goPrefix path ∨ '.' ∈ (host path).toList := by
  rw [isStandardImport, toList_host, LiesBelow, exists_eq_append_iff]
  by_cases hempty : goPrefix = "" <;>
    by_cases hdot : '.' ∈ path.toList.takeWhile (· != '/') <;> simp [hempty, hdot]

/-- Of the local imports only the prefix itself can pass for one of the standard library. -/
theorem isStandardImport_iff_of_liesIn (h : LiesIn goPrefix path) :
    isStandardImport goPrefix path = true ↔ path = goPrefix ∧ '.' ∉ (host path).toList := by
  rw [← Bool.not_eq_false, isStandardImport_eq_false_iff, not_or]
  refine and_congr_left fun _ => ⟨fun hbelow => ?_, fun heq hbelow => hbelow.ne heq⟩
  exact h.2.resolve_right fun hrest => hbelow ⟨h.1, hrest⟩

end Label

namespace SourceFile

variable {read : HeaderReader} {config : Config} {dir : Path} {name content : String}
  {file : SourceFile} {header : Header}

/-- The record of a Go file has the imports that lie below the prefix or have a dot in their first
component, in their order. -/
theorem imports_of_ofGo (h : ofGo read config dir name content = .ok file)
    (hread : read content = .ok header) :
    file.imports = (header.imports.map ImportSpec.path).filter fun path =>
      Label.LiesBelow config.goPrefix path ∨ '.' ∈ (Label.host path).toList := by
  have hfilter : file.imports = (header.imports.map ImportSpec.path).filter fun path =>
      path ≠ cgoImport ∧ isStandardImport config.goPrefix path = false := by
    simp only [ofGo, hread, List.partition_eq_filter_filter] at h
    split at h
    · cases h
    · split at h
      · cases h
      · obtain rfl := Except.ok.inj h
        simp [List.filter_map, List.filter_filter, Function.comp_def, Bool.and_comm]
  -- `C` itself lies below no prefix and has no dot, so the test for it is no condition of its own.
  rw [hfilter]
  refine List.filter_congr fun path _ => decide_eq_decide.mpr ?_
  rw [← Label.isStandardImport_eq_false_iff]
  refine and_iff_right_of_imp fun hstandard => ?_
  rintro rfl
  rw [Label.isStandardImport_eq_false_iff] at hstandard
  rcases hstandard with ⟨-, rest, hrest⟩ | hdot
  · have hslash : '/' ∈ cgoImport.toList := by simp [hrest]
    exact absurd hslash (by decide)
  · exact absurd hdot (by decide)

end SourceFile

namespace Label

/-- **Labels and records agree on what is local.** An import path that can be resolved has a local
label exactly when it is the prefix or starts with it and a slash, that is, when the components of
the prefix are its first ones. Of these paths only the prefix itself can pass for an import of the
standard library, when its first component has no dot. So of the imports of its header, a record has
all that lie below the prefix, all whose first component has a dot, and no others. -/
theorem isLocal_agrees_with_imports (config : Config) :
    (∀ path, fault? path = none →
      (∀ fromRel, ∃ label, resolve config.goPrefix path fromRel = .ok label ∧
        (label.isLocal = true ↔ LiesIn config.goPrefix path)) ∧
      (LiesIn config.goPrefix path ↔
        Text.splitAt '/' config.goPrefix <+: Text.splitAt '/' path) ∧
      (LiesIn config.goPrefix path → (isStandardImport config.goPrefix path = true ↔
        path = config.goPrefix ∧ '.' ∉ (host path).toList))) ∧
    ∀ read dir name content header file, read content = .ok header →
      SourceFile.ofGo read config dir name content = .ok file →
        file.imports = (header.imports.map ImportSpec.path).filter fun path =>
          LiesBelow config.goPrefix path ∨ '.' ∈ (host path).toList := by
  refine ⟨fun path hfault => ?_, fun read dir name content header file hread h =>
    SourceFile.imports_of_ofGo h hread⟩
  have hpath := fault?_eq_none_iff.mp hfault
  exact ⟨exists_label_isLocal_iff hpath, liesIn_iff_prefix hpath, isStandardImport_iff_of_liesIn⟩

theorem isLocal_agrees_with_imports_dotlessPrefix :
    let config : Config := { goPrefix := "repo", repoRoot := .ofText "/repo" }
    let paths := ["repo", "fmt", "repo/lib", "repository/x", "github.com/a", "C"]
    let header : Header := ⟨"d", paths.map fun path => ⟨path, none⟩⟩
    let dir : Path := .ofText "/repo/d"
    fault? "repo" = none ∧ fault? "repo/lib" = none ∧ fault? "repository/x" = none ∧
      (∃ label, resolve "repo" "repo/lib" "cmd" = .ok label ∧ label.isLocal = true) ∧
      (∃ label, resolve "repo" "repository/x" "cmd" = .ok label ∧ ¬ label.isLocal = true) ∧
      (LiesIn "repo" "repo" ∧ isStandardImport "repo" "repo" = true) ∧
      ∃ file, SourceFile.ofGo (fun _ => .ok header) config dir "a.go" "" = .ok file ∧
        file.imports = ["repo/lib", "github.com/a"] := by
  intro config paths header dir
  have hfault : ∀ path ∈ ["repo", "repo/lib", "repository/x"], fault? path = none := by decide
  obtain ⟨hlabels, himports⟩ := isLocal_agrees_with_imports config
  have hroot := hlabels "repo" (hfault _ (by decide))
  have hlib := hlabels "repo/lib" (hfault _ (by decide))
  have hlookalike := hlabels "repository/x" (hfault _ (by decide))
  obtain ⟨lib, hlib_label, hlib_local⟩ := hlib.1 "cmd"
  obtain ⟨other, hother_label, hother_local⟩ := hlookalike.1 "cmd"
  have hroot_lies : LiesIn "repo" "repo" := ⟨by decide, .inl rfl⟩
  have hlib_prefix : Text.splitAt '/' "repo" <+: Text.splitAt '/' "repo/lib" := by decide
  have hother_prefix : ¬ Text.splitAt '/' "repo" <+: Text.splitAt '/' "repository/x" := by decide
  obtain ⟨file, hfile⟩ : ∃ file,
      SourceFile.ofGo (fun _ => .ok header) config dir "a.go" "" = .ok file := ⟨_, rfl⟩
  refine ⟨hfault _ (by decide), hfault _ (by decide), hfault _ (by decide),
    ⟨lib, hlib_label, hlib_local.mpr (hlib.2.1.mpr hlib_prefix)⟩,
    ⟨other, hother_label, fun h => hother_prefix (hlookalike.2.1.mp (hother_local.mp h))⟩,
    ⟨hroot_lies, (hroot.2.2 hroot_lies).mpr ⟨rfl, by decide⟩⟩, file, hfile, ?_⟩
  rw [himports _ _ _ _ header file rfl hfile]
  decide

end Label

end GoBuildRules
