import GoBuildRules.Proofs.Package.Partition
import GoBuildRules.Proofs.Package.Removal
import GoBuildRules.Proofs.Rule.LocalLabels

/-!
# Nothing of a package is lost in its rules

The package of a directory holds imports only where it holds the Go file that they come from
(`exists_goSource_of_import`). So every target with Go sources or imports has a rule, and the rules
say all that the package does (`Generated.Covers`): the name of a Go file is listed by one rule for
each target that it is a source of, each path that is imported is a dependency or an error, and
there are no other errors.

A name is a source of two targets only when it is the name of two files
(`Analysis.IsAnalysis.role_eq_of_hasOwnName`).
-/

namespace GoBuildRules

open Package

/-- The strings that stand in an attribute of the rule; none when it is not there. -/
def Rule.strings (rule : Rule) (key : String) : List String :=
  match rule.attr? key with
  | none => []
  | some e => e.values

/-- The rules that list the string in the attribute. -/
def Generated.listing (generated : Generated) (key s : String) : List Rule :=
  generated.rules.filter fun rule => s ∈ rule.strings key

/-- The rules that are the one of the target, by kind and name. -/
def Generated.rulesOf (generated : Generated) (package : Package) (role : Role) : List Rule :=
  generated.rules.filter fun rule => role.IsRule package rule

/-- The targets in the order of their rules. -/
def Package.Role.all : List Role :=
  [cgoLibrary, library, binary, test, externalTest]

/-- The targets of which the name is a source. -/
def Package.rolesOf (package : Package) (name : String) : List Role :=
  Role.all.filter fun role => name ∈ (role.target package).sources.toList

/-- The rules and errors say all that the package does. -/
structure Generated.Covers (generated : Generated) (config : Config) (package : Package) :
    Prop where
  /-- The name of a Go file is listed by one rule for each target that it is a source of, which is
  the rule of the target. -/
  sources : ∀ name, Text.endsWith ".go" name = true →
    List.Forall₂ (fun role rule => role.IsRule package rule) (package.rolesOf name)
      (generated.listing "srcs" name)
  /-- An import is a dependency of the one rule of its target wherever it holds, or an error. -/
  imports : ∀ (role : Role) (platform path : String),
    path ∈ (role.target package).imports.effective platform →
      match Label.resolve config.goPrefix path package.rel with
      | .ok label => ∃ rule labels, generated.rulesOf package role = [rule] ∧
          rule.evalAt (conditionLabel config platform) "deps" = some labels ∧ label.text ∈ labels
      | .error e => e ∈ generated.errors
  /-- Every error is that of an import. -/
  errors : ∀ e ∈ generated.errors, ∃ role : Role, ∃ path ∈ (role.target package).imports.toList,
    Label.resolve config.goPrefix path package.rel = .error e

namespace Generated

variable {config : Config} {package : Package} {target : Target}

/-! ## The sources of rules -/

/-- The strings in the expression of a list of strings are these. -/
theorem values_toExpr_strings (values : List String) :
    (Value.strings values).toExpr.values = values := by
  rw [Value.toExpr_strings, Expr.values_strings]

section Rule

variable {condition : Bool} {kind name key : String} {attributes : List Attributes} {r : Rule}

/-- The strings of an attribute of a rule are those of its value. -/
theorem strings_of_mem_rule (h : r ∈ (rule condition kind name attributes).rules)
    (hkey : key ≠ "name") :
    r.strings key =
      match attributes.findSome? fun a => a.get? key with
      | none => []
      | some value => value.toExpr.values := by
  rw [Rule.strings, attr?_of_mem_rule h, get?_attr, if_neg hkey, Option.none_or]
  cases attributes.findSome? fun a => a.get? key <;> rfl

theorem exists_rules_rule (kind name : String) (attributes : List Attributes)
    (h : condition = true) : ∃ r, (rule condition kind name attributes).rules = [r] := by
  rw [rule, if_pos h]
  exact ⟨_, rfl⟩

/-! ## The errors of rules -/

theorem errors_foldl_append (attributes : List Attributes) (start : Attributes) :
    (attributes.foldl Attributes.append start).errors =
      start.errors ++ attributes.flatMap Attributes.errors := by
  induction attributes generalizing start with
  | nil => simp
  | cons a rest ih =>
    rw [List.foldl_cons, ih, Attributes.append, List.append_assoc, List.flatMap_cons]

@[simp]
theorem errors_rule : (rule condition kind name attributes).errors =
    if condition then attributes.flatMap Attributes.errors else [] := by
  cases condition with
  | false => rfl
  | true =>
    have hall := errors_foldl_append attributes (attr "name" (.string name))
    rw [rule, if_pos rfl, if_pos rfl]
    exact hall

end Rule

@[simp]
theorem errors_append (a b : Attributes) : (a.append b).errors = a.errors ++ b.errors := rfl

@[simp]
theorem errors_attr (key : String) (value : Value) : (attr key value).errors = [] := rfl

@[simp]
theorem errors_onlyIf (condition : Bool) (attributes : Attributes) :
    (onlyIf condition attributes).errors = if condition then attributes.errors else [] := by
  cases condition <;> rfl

/-- The errors about the imports of a target. -/
def importErrors (config : Config) (package : Package) (target : Target) : List ResolveError :=
  Results.errors (target.imports.toList.map (labelOf config package))

@[simp]
theorem errors_deps :
    (deps config package target).errors = importErrors config package target := rfl

theorem mem_importErrors_iff {e : ResolveError} :
    e ∈ importErrors config package target ↔ ∃ path ∈ target.imports.toList,
      Label.resolve config.goPrefix path package.rel = .error e := by
  rw [importErrors, Results.mem_errors_iff, List.mem_map]
  refine exists_congr fun path => and_congr_right fun _ => ?_
  rw [labelOf]
  cases Label.resolve config.goPrefix path package.rel <;> simp [Except.map]

/-- The group of the `.proto` files lists these. -/
theorem mem_strings_of_mem_protoGroup {r : Rule} {s : String} (h : r ∈ (protoGroup package).rules)
    (hs : s ∈ r.strings "srcs") : s ∈ package.protos := by
  rw [strings_of_mem_rule h (by decide), findSome?_get?_cons, get?_attr, if_pos rfl,
    Option.some_or] at hs
  rw [← values_toExpr_strings package.protos]
  exact hs

end Generated

namespace Package

theorem isEmpty_of_hasGo {target : Target} (h : target.hasGo = true) :
    target.sources.isEmpty = false := by
  obtain ⟨name, hname, -⟩ := PlatformStrings.hasGo_eq_true_iff.mp h
  obtain ⟨platform, hplatform⟩ := PlatformStrings.mem_toList_iff_effective.mp hname
  refine Bool.eq_false_iff.mpr fun hempty => ?_
  rw [PlatformStrings.effective_eq_nil_of_isEmpty hempty] at hplatform
  cases hplatform

end Package

/-! ## The rule of a target -/

namespace Package.Role

variable {config : Config} {package : Package} {role : Role} {r : Rule} {s : String}

/-- Whether the target has a rule that says what it holds. -/
def isBuilt (package : Package) : Role → Bool
  | library => Generated.hasLibrary package
  | cgoLibrary => Generated.hasCgoLibrary package
  | binary => package.isCommand && package.binary.hasGo
  | test => package.test.hasGo
  | externalTest => package.externalTest.hasGo

/-- A target with Go sources is built, unless it is a program. -/
theorem isBuilt_of_hasGo (hrole : role ≠ .binary) (h : (role.target package).hasGo = true) :
    role.isBuilt package = true := by
  cases role with
  | library =>
    rw [isBuilt, Generated.hasLibrary, Bool.or_eq_true]
    exact .inl h
  | cgoLibrary =>
    have hsources : package.cgoLibrary.sources.isEmpty = false := isEmpty_of_hasGo h
    rw [isBuilt, Generated.hasCgoLibrary, hsources, Bool.not_false]
  | binary => exact absurd rfl hrole
  | test => exact h
  | externalTest => exact h

open Generated in
theorem exists_rules_generated (config : Config) (h : role.isBuilt package = true) :
    ∃ r, (role.generated config package).rules = [r] := by
  cases role with
  | library => exact exists_rules_rule _ _ _ h
  | cgoLibrary => exact exists_rules_rule _ _ _ h
  | binary =>
    obtain ⟨hcommand, hgo⟩ := Bool.and_eq_true_iff.mp h
    exact exists_rules_rule _ _ _ (by rw [hcommand, hgo, Bool.or_true, Bool.and_true])
  | test => exact exists_rules_rule _ _ _ h
  | externalTest => exact exists_rules_rule _ _ _ h

open Generated in
/-- The rule of a target lists the sources of the target; that of a program lists them when there
is a Go file among them. -/
theorem mem_strings_srcs_iff (h : r ∈ (role.generated config package).rules) :
    s ∈ r.strings "srcs" ↔ s ∈ (role.target package).sources.toList ∧
      (role = .binary → package.binary.hasGo = true) := by
  have hkey : "srcs" ≠ "name" := by decide
  -- Of these only the library leaves its sources out when there are none, and only the program when
  -- it has no Go file.
  cases role with
  | library =>
    rw [strings_of_mem_rule h hkey]
    cases hsources : package.library.sources.isEmpty with
    | false => simp [target, mem_values_platformValue]
    | true =>
      have hnone : ∀ platform, s ∉ package.library.sources.effective platform := by
        intro platform
        rw [PlatformStrings.effective_eq_nil_of_isEmpty hsources]
        exact List.not_mem_nil
      simp [target, PlatformStrings.mem_toList_iff_effective, hnone]
  | cgoLibrary =>
    rw [strings_of_mem_rule h hkey]
    simp [target, mem_values_platformValue]
  | binary =>
    rw [strings_of_mem_rule h hkey]
    cases package.binary.hasGo <;> simp [target, mem_values_platformValue]
  | test =>
    rw [strings_of_mem_rule h hkey]
    simp [target, mem_values_platformValue]
  | externalTest =>
    rw [strings_of_mem_rule h hkey]
    simp [target, mem_values_platformValue]

open Generated in
/-- The errors about a target that is built are those about its imports. -/
theorem errors_generated (config : Config) (package : Package) (role : Role) :
    (role.generated config package).errors =
      if role.isBuilt package then importErrors config package (role.target package) else [] := by
  cases role with
  | library =>
    show (Generated.library config package).errors =
      if hasLibrary package then importErrors config package package.library else []
    simp [Generated.library, srcs, onLibrary, visibility]
  | cgoLibrary =>
    show (Generated.cgoLibrary config package).errors =
      if hasCgoLibrary package then importErrors config package package.cgoLibrary else []
    simp [Generated.cgoLibrary, srcs, flags, visibility]
  | binary =>
    show (Generated.binary config package).errors =
      if package.isCommand && package.binary.hasGo then
        importErrors config package package.binary
      else []
    cases hgo : package.binary.hasGo <;>
      simp [Generated.binary, srcs, onLibrary, visibility, hgo]
  | test =>
    show (Generated.test config package).errors =
      if package.test.hasGo then importErrors config package package.test else []
    simp [Generated.test, srcs, onLibrary, testData]
  | externalTest =>
    show (Generated.externalTest config package).errors =
      if package.externalTest.hasGo then importErrors config package package.externalTest else []
    simp [Generated.externalTest, srcs, testData]

/-! ## The rules of a package -/

/-- The errors about a package are those about its targets. -/
theorem mem_errors_generate_iff {e : ResolveError} :
    e ∈ (package.generate config).errors ↔
      ∃ role : Role, e ∈ (role.generated config package).errors := by
  have hprotos : (Generated.protoGroup package).errors = [] := by simp [Generated.protoGroup]
  have herrors : (package.generate config).errors =
      (cgoLibrary.generated config package).errors ++
        ((library.generated config package).errors ++ ((binary.generated config package).errors ++
          ((test.generated config package).errors ++
            (externalTest.generated config package).errors))) := by
    simp [generate, generated, hprotos]
  rw [herrors]
  simp only [List.mem_append]
  refine ⟨?_, ?_⟩
  · rintro (h | h | h | h | h)
    · exact ⟨.cgoLibrary, h⟩
    · exact ⟨.library, h⟩
    · exact ⟨.binary, h⟩
    · exact ⟨.test, h⟩
    · exact ⟨.externalTest, h⟩
  · rintro ⟨role, h⟩
    cases role with
    | library => exact .inr (.inl h)
    | cgoLibrary => exact .inl h
    | binary => exact .inr (.inr (.inl h))
    | test => exact .inr (.inr (.inr (.inl h)))
    | externalTest => exact .inr (.inr (.inr (.inr h)))

/-- The rules of a package are the group of its `.proto` files and the rules of its targets. -/
theorem rules_generate_eq_append_flatMap (config : Config) (package : Package) :
    (package.generate config).rules = (Generated.protoGroup package).rules ++
      all.flatMap fun role => (role.generated config package).rules := by
  simp [rules_generate, all]

/-- Where a property holds of no rules but those of one target, these are the rules with it. -/
theorem filter_rules_generate {p : Rule → Bool} (role : Role)
    (hprotos : ∀ rule ∈ (Generated.protoGroup package).rules, p rule = false)
    (hothers : ∀ other, other ≠ role → ∀ rule ∈ (other.generated config package).rules,
      p rule = false) :
    (package.generate config).rules.filter p = (role.generated config package).rules.filter p := by
  have hnone : ∀ rules : List Rule, (∀ rule ∈ rules, p rule = false) → rules.filter p = [] :=
    fun rules h => List.filter_eq_nil_iff.mpr fun rule hrule => Bool.eq_false_iff.mp (h rule hrule)
  have hnil : ∀ other, other ≠ role → (other.generated config package).rules.filter p = [] :=
    fun other hne => hnone _ (hothers other hne)
  rw [rules_generate]
  simp only [List.filter_append, hnone _ hprotos, List.nil_append]
  cases role with
  | library =>
    rw [hnil .cgoLibrary nofun, hnil .binary nofun, hnil .test nofun, hnil .externalTest nofun]
    simp
  | cgoLibrary =>
    rw [hnil .library nofun, hnil .binary nofun, hnil .test nofun, hnil .externalTest nofun]
    simp
  | binary =>
    rw [hnil .library nofun, hnil .cgoLibrary nofun, hnil .test nofun, hnil .externalTest nofun]
    simp
  | test =>
    rw [hnil .library nofun, hnil .cgoLibrary nofun, hnil .binary nofun, hnil .externalTest nofun]
    simp
  | externalTest =>
    rw [hnil .library nofun, hnil .cgoLibrary nofun, hnil .binary nofun, hnil .test nofun]
    simp

/-- The rule of a target is the only one of its kind and name. -/
theorem rulesOf_generate {r : Rule} (hrules : (role.generated config package).rules = [r]) :
    (package.generate config).rulesOf package role = [r] := by
  have hrule : role.IsRule package r :=
    isRule_of_mem_generated (hrules ▸ List.mem_singleton_self r)
  rw [Generated.rulesOf, filter_rules_generate role, hrules, List.filter_singleton]
  · simp [hrule]
  · intro rule hprotos
    refine decide_eq_false fun hisRule => ?_
    have hkind : role.kind = "filegroup" :=
      hisRule.1.symm.trans (Generated.kind_of_mem_rule hprotos)
    cases role <;> exact absurd hkind (by decide)
  · intro other hne rule hmem
    exact decide_eq_false fun hisRule => hne (eq_of_isRule (isRule_of_mem_generated hmem) hisRule)

end Package.Role

/-! ## Assembled packages -/

namespace Package

/-- What holds of a package whose files have been divided among its targets. -/
structure IsAssembled (package : Package) : Prop where
  /-- A program has no sources of its own. -/
  binary : package.binary.hasGo = false
  /-- No Go file is among the `.proto` files. -/
  protos : ∀ {name : String}, name ∈ package.protos → Text.endsWith ".go" name = false
  /-- Where there is an import, there is a Go file. -/
  imports : ∀ {role : Role} {platform path : String},
    path ∈ (role.target package).imports.effective platform →
      ∃ name ∈ (role.target package).sources.effective platform, Text.endsWith ".go" name = true

variable {config : Config} {package : Package} {role : Role} {name platform path : String}

/-- A target with a Go file is no program, and it has one rule. -/
theorem IsAssembled.exists_rule (h : package.IsAssembled) (config : Config)
    (hname : name ∈ (role.target package).sources.toList)
    (hgo : Text.endsWith ".go" name = true) :
    role ≠ .binary ∧ role.isBuilt package = true ∧
      ∃ r, (role.generated config package).rules = [r] := by
  have htarget : (role.target package).hasGo = true :=
    PlatformStrings.hasGo_eq_true_iff.mpr ⟨name, hname, hgo⟩
  have hrole : role ≠ .binary := by
    rintro rfl
    exact Bool.eq_false_iff.mp h.binary htarget
  have hbuilt := Role.isBuilt_of_hasGo hrole htarget
  exact ⟨hrole, hbuilt, Role.exists_rules_generated config hbuilt⟩

/-- Of the rules of a target the one rule lists a Go file that is a source of it. -/
theorem IsAssembled.exists_filter_generated (h : package.IsAssembled) (config : Config)
    (hname : name ∈ (role.target package).sources.toList)
    (hgo : Text.endsWith ".go" name = true) :
    ∃ r, (role.generated config package).rules.filter (fun rule => name ∈ rule.strings "srcs") =
        [r] ∧ role.IsRule package r := by
  obtain ⟨hrole, -, r, hr⟩ := h.exists_rule config hname hgo
  have hmem : r ∈ (role.generated config package).rules := hr ▸ List.mem_singleton_self r
  have hlists : name ∈ r.strings "srcs" :=
    (Role.mem_strings_srcs_iff hmem).mpr ⟨hname, fun heq => absurd heq hrole⟩
  exact ⟨r, by simp [hr, hlists], Role.isRule_of_mem_generated hmem⟩

theorem filter_generated_eq_nil (config : Config)
    (hname : name ∉ (role.target package).sources.toList) :
    (role.generated config package).rules.filter (fun rule => name ∈ rule.strings "srcs") = [] := by
  refine List.filter_eq_nil_iff.mpr fun rule hrule hlists => hname ?_
  exact ((Role.mem_strings_srcs_iff hrule).mp (of_decide_eq_true hlists)).1

/-- A Go file is listed by one rule for each target that it is a source of. -/
theorem IsAssembled.forall₂_listing (h : package.IsAssembled) (config : Config)
    (hgo : Text.endsWith ".go" name = true) :
    List.Forall₂ (fun role rule => role.IsRule package rule) (package.rolesOf name)
      ((package.generate config).listing "srcs" name) := by
  have hprotos : (Generated.protoGroup package).rules.filter
      (fun rule => name ∈ rule.strings "srcs") = [] := by
    refine List.filter_eq_nil_iff.mpr fun rule hrule hlists => ?_
    have hproto := Generated.mem_strings_of_mem_protoGroup hrule (of_decide_eq_true hlists)
    exact absurd hgo (Bool.eq_false_iff.mp (h.protos hproto))
  rw [Generated.listing, Role.rules_generate_eq_append_flatMap, List.filter_append, hprotos,
    List.nil_append, List.filter_flatMap, rolesOf]
  -- Each target adds itself and its rule, or nothing to either side.
  induction Role.all with
  | nil => exact .nil
  | cons role rest ih =>
    rw [List.flatMap_cons]
    by_cases hname : name ∈ (role.target package).sources.toList
    · obtain ⟨r, hr, hrule⟩ := h.exists_filter_generated config hname hgo
      rw [List.filter_cons_of_pos (by simpa using hname), hr]
      exact .cons hrule ih
    · rw [List.filter_cons_of_neg (by simpa using hname), filter_generated_eq_nil config hname]
      exact ih

/-- The targets of a name are one when it is a source of no other. -/
theorem rolesOf_eq_singleton (hname : name ∈ (role.target package).sources.toList)
    (hunique : ∀ other : Role, name ∈ (other.target package).sources.toList → other = role) :
    package.rolesOf name = [role] := by
  have hiff : ∀ other : Role, name ∈ (other.target package).sources.toList ↔ other = role :=
    fun other => ⟨hunique other, fun heq => heq ▸ hname⟩
  simp only [rolesOf, hiff]
  cases role <;> decide

/-- The rules of an assembled package say all that the package does. -/
theorem IsAssembled.covers (h : package.IsAssembled) (config : Config) :
    (package.generate config).Covers config package where
  sources _ hgo := h.forall₂_listing config hgo
  imports role platform path hpath := by
    -- Where there is an import there is a Go file, so the target has its rule.
    obtain ⟨name, hname, hgo⟩ := h.imports hpath
    obtain ⟨hrole, hbuilt, r, hr⟩ :=
      h.exists_rule config (PlatformStrings.mem_toList_iff_effective.mpr ⟨platform, hname⟩) hgo
    have hmem : r ∈ (role.generated config package).rules := hr ▸ List.mem_singleton_self r
    cases hresolve : Label.resolve config.goPrefix path package.rel with
    | ok label =>
      obtain ⟨labels, hlabels, hmem_labels⟩ :=
        (Role.denotes_of_mem_generated hmem (fun heq => absurd heq hrole) platform).deps
      refine ⟨r, labels, Role.rulesOf_generate hr, hlabels, (hmem_labels _).mpr ⟨path, hpath, ?_⟩⟩
      rw [hresolve]
      rfl
    | error e =>
      refine Role.mem_errors_generate_iff.mpr ⟨role, ?_⟩
      rw [Role.errors_generated, if_pos hbuilt]
      exact Generated.mem_importErrors_iff.mpr
        ⟨path, PlatformStrings.mem_toList_iff_effective.mpr ⟨platform, hpath⟩, hresolve⟩
  errors e he := by
    obtain ⟨role, hrole⟩ := Role.mem_errors_generate_iff.mp he
    rw [Role.errors_generated] at hrole
    split at hrole
    · exact ⟨role, Generated.mem_importErrors_iff.mp hrole⟩
    · cases hrole

end Package

/-! ## The package of a directory -/

/-- Only Go files have imports. -/
theorem SourceFile.imports_of_ofOther {config : Config} {dir : Path} {name : String}
    {content : Option String} {file : SourceFile} (h : ofOther config dir name content = .ok file) :
    file.imports = [] := by
  obtain ⟨category, constraints, rfl⟩ := exists_of_ofOther h
  rfl

namespace Analysis

theorem isGo_of_mem_imports {read : HeaderReader} {config : Config} {tree : FileTree} {dir : Path}
    {entry : TreeEntry} {file : SourceFile} {path : String}
    (h : record read config tree dir entry = .ok file) (hpath : path ∈ file.imports) :
    isGo entry = true := by
  by_contra hgo
  obtain ⟨content, hother⟩ := exists_ofOther_of_record (Bool.eq_false_iff.mpr hgo) h
  rw [SourceFile.imports_of_ofOther hother] at hpath
  cases hpath

section Assembled

variable {record : TreeEntry → Except FileError SourceFile} {config : Config} {dir : Path}
  {files : List TreeEntry} {package : Package} {errors : List FileError} {role : Role}
  {platform path : String} (h : IsAnalysis record config dir files package errors)
  (hgo : ∀ entry file, record entry = .ok file → ∀ path ∈ file.imports, isGo entry = true)

include h hgo

/-- An import on a platform comes from a Go file that is a source of the target there. -/
theorem IsAnalysis.exists_goSource_of_import
    (hpath : path ∈ (role.target package).imports.effective platform) :
    ∃ name ∈ (role.target package).sources.effective platform,
      Text.endsWith ".go" name = true := by
  obtain ⟨entry, hentry, file, hpart, htaken, hplace, hgiven⟩ :=
    (h.holds_iff (.onPlatform role .imports platform path)).mp hpath
  have himports : path ∈ file.imports := by
    rcases hgiven with halways | ⟨tags, -, hon⟩
    · exact (Target.givenAlways_imports_iff.mp halways).2
    · exact (Target.givenOn_imports_iff.mp hon).2
  have hname : file.name = entry.name := h.name_eq_of_part hpart
  -- The file that gives the import gives its own name on the same platforms.
  refine ⟨file.name, (h.holds_iff (.onPlatform role .sources platform file.name)).mpr
    ⟨entry, hentry, file, hpart, htaken, hplace, ?_⟩, ?_⟩
  · rcases hgiven with halways | ⟨tags, hget, hon⟩
    · have hempty := (Target.givenAlways_imports_iff.mp halways).1
      exact .inl (Target.givenAlways_sources_iff.mpr ⟨hempty, rfl⟩)
    · have hadmits := (Target.givenOn_imports_iff.mp hon).1
      exact .inr ⟨tags, hget, Target.givenOn_sources_iff.mpr ⟨hadmits, rfl⟩⟩
  · rw [hname]
    exact hgo entry file (part?_eq_some_iff.mp hpart).1 path himports

omit hgo in
/-- The `.proto` files are no Go files. -/
theorem IsAnalysis.endsWith_of_mem_protos {s : String} (hs : s ∈ package.protos) :
    Text.endsWith ".go" s = false := by
  obtain ⟨fates, haccounts, -⟩ := h.partitions.fate
  obtain ⟨entry, hentry, rfl, hproto⟩ := (haccounts.protos s).mp hs
  have hreason := haccounts.reason entry hentry
  rw [hproto] at hreason
  have hcategory : SourceFile.categoryOf entry.name = .proto := hreason
  refine Bool.eq_false_iff.mpr fun hgo => ?_
  cases (SourceFile.categoryOf_eq_go_iff.mpr hgo).symm.trans hcategory

theorem IsAnalysis.isAssembled : package.IsAssembled where
  binary := h.binary_hasGo
  protos := h.endsWith_of_mem_protos
  imports := h.exists_goSource_of_import hgo

omit hgo in
/-- A name is a source of two targets only when another file has it too. -/
theorem IsAnalysis.role_eq_of_hasOwnName {entry : TreeEntry} {other : Role}
    (hentry : entry ∈ files) (hown : HasOwnName files entry)
    (hrole : entry.name ∈ (role.target package).sources.toList)
    (hother : entry.name ∈ (other.target package).sources.toList) : other = role := by
  obtain ⟨fates, haccounts, -⟩ := h.partitions.fate
  rw [haccounts.mem_sources_iff hentry hown] at hrole hother
  exact Fate.source.inj (hother.symm.trans hrole)

end Assembled

/-- **Nothing is lost between a package and its rules.** In what is generated for the package of a
directory the name of a Go file is listed by exactly one rule for each target that it is a source
of, and this is one rule for a file with a name of its own. Every import is a dependency of the rule
of its target wherever it holds, or its error is given, and no other errors are. -/
theorem ofDirectory_generate_covers (read : HeaderReader) (config : Config) (tree : FileTree)
    (dir : Path) {package : Package} {errors : List FileError}
    (h : Package.ofDirectory read config tree dir = .ok ⟨some package, errors⟩) :
    (package.generate config).Covers config package ∧
      ∀ entry ∈ filesIn tree dir, HasOwnName (filesIn tree dir) entry → isGo entry = true →
        ∀ role : Role, entry.name ∈ (role.target package).sources.toList →
          ∃ rule, (package.generate config).listing "srcs" entry.name = [rule] ∧
            role.IsRule package rule := by
  obtain ⟨entries, hlist⟩ := exists_list_of_ofDirectory h nofun
  rw [Package.ofDirectory, hlist] at h
  have hanalysis := isAnalysis_of_ofEntries (FileTree.pairwise_list hlist) h
  have hcovers : (package.generate config).Covers config package :=
    (hanalysis.isAssembled fun _ _ hrecord _ => isGo_of_mem_imports hrecord).covers config
  refine ⟨hcovers, fun entry hentry hown hgo role hrole => ?_⟩
  rw [filesIn_eq hlist] at hentry hown
  -- No other target has the name, so that the rules that list it are the one of this target.
  have hroles : package.rolesOf entry.name = [role] :=
    Package.rolesOf_eq_singleton hrole fun _ =>
      hanalysis.role_eq_of_hasOwnName hentry hown hrole
  have hlisting := hcovers.sources entry.name hgo
  rw [hroles] at hlisting
  obtain ⟨rule, rest, hrule, hrest, hrules⟩ := List.forall₂_cons_left_iff.mp hlisting
  obtain rfl := List.forall₂_nil_left_iff.mp hrest
  exact ⟨rule, hrules, hrule⟩

/-- A directory tree with a Go file for Linux that imports a package of the repository and a path
that leads nowhere. -/
def linuxImports : FileTree :=
  oneGoFile "d/a_linux.go" "package d\n\nimport (\n\t\"example.com/repo/e\"\n\t\"x.com//y\"\n)\n"

theorem ofDirectory_generate_covers_linuxImports :
    ∃ package errors,
      Package.ofDirectory Header.parse prefixedConfig linuxImports (.ofText "/repo/d") =
        .ok ⟨some package, errors⟩ ∧
      (package.generate prefixedConfig).Covers prefixedConfig package ∧
      (∃ rule, (package.generate prefixedConfig).listing "srcs" "a_linux.go" = [rule] ∧
        Role.library.IsRule package rule) ∧
      "example.com/repo/e" ∈ package.library.imports.toList ∧
      .emptyComponent "x.com//y" ∈ (package.generate prefixedConfig).errors := by
  have hany : ((Package.ofDirectory Header.parse prefixedConfig linuxImports
      (.ofText "/repo/d")).toOption.bind
      Analysis.package).any (fun package =>
        package.library.sources.toList.contains "a_linux.go" &&
        package.library.imports.toList.contains "example.com/repo/e" &&
        (package.generate prefixedConfig).errors.contains (.emptyComponent "x.com//y")) = true := by
    decide +kernel
  simp only [Option.any_eq_true, Bool.and_eq_true, List.contains_iff_mem] at hany
  obtain ⟨package, hpackage, ⟨hsource, himport⟩, herrors⟩ := hany
  obtain ⟨⟨_, errors⟩, hanalysis, rfl⟩ := Option.bind_eq_some_iff.mp hpackage
  have h := toOption_eq_some_iff.mp hanalysis
  obtain ⟨entry, hfiles, hname⟩ : ∃ entry, filesIn linuxImports (.ofText "/repo/d") = [entry] ∧
      entry.name = "a_linux.go" := ⟨⟨.ofText "/repo/d/a_linux.go", _⟩, rfl, by decide +kernel⟩
  obtain ⟨hcovers, hsources⟩ := ofDirectory_generate_covers Header.parse prefixedConfig linuxImports
    (.ofText "/repo/d") h
  rw [hfiles] at hsources
  have hown : HasOwnName [entry] entry := fun _ hmem _ => List.mem_singleton.mp hmem
  have hgo : isGo entry = true := by rw [isGo, hname]; decide
  have hlisting := hsources entry (List.mem_singleton_self entry) hown hgo .library
  rw [hname] at hlisting
  exact ⟨package, errors, h, hcovers, hlisting hsource, himport, herrors⟩

/-- Where the names of two files read alike, the name need not be listed by one rule only. -/
theorem listing_likeNames :
    let config : Config :=
      { goPrefix := "", repoRoot := .ofText "/repo", platforms := Target.twoSystems }
    ∃ package errors,
      Package.ofDirectory Header.parse config likeNames (.ofText "/repo/d") =
        .ok ⟨some package, errors⟩ ∧
      ∃ (role : Role) (name : String), name ∈ (role.target package).sources.toList ∧
        Text.endsWith ".go" name = true ∧
        ((package.generate config).listing "srcs" name).length = 2 := by
  intro config
  have hany : ((Package.ofDirectory Header.parse config likeNames
      (.ofText "/repo/d")).toOption.bind Analysis.package).any (fun package =>
        package.library.sources.toList.any fun name => Text.endsWith ".go" name &&
          decide (((package.generate config).listing "srcs" name).length = 2)) = true := by
    decide +kernel
  simp only [Option.any_eq_true, List.any_eq_true, Bool.and_eq_true, decide_eq_true_eq] at hany
  obtain ⟨package, hpackage, name, hname, hgo, htwo⟩ := hany
  obtain ⟨⟨_, errors⟩, hanalysis, rfl⟩ := Option.bind_eq_some_iff.mp hpackage
  exact ⟨package, errors, toOption_eq_some_iff.mp hanalysis, .library, name, hname, hgo, htwo⟩

end Analysis

end GoBuildRules
