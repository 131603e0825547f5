import GoBuildRules.Proofs.Package.Facts
import GoBuildRules.Proofs.PlatformStrings.Mapping
import GoBuildRules.Proofs.Rule.Accessors
import GoBuildRules.Rule.Generate

/-!
# What generated rules stand for

The rule of a target is read back by evaluation (`Rule.evalAt`) at the label of a platform. It gives
the strings that the target holds on that platform, and for its imports the labels that they have.

* `evalAt_platformValue`: strings for platforms evaluate to those that hold on the platform.
* `mem_effective_depLabels`: the dependencies on a platform are the labels of the imports that hold
  there.
* `denotes_of_mem_generated`: the rule that is generated for a target stands for the target.
* `generate_denotes_package`: the rules of a package evaluate to the package, on every platform.
-/

namespace GoBuildRules

open Package

namespace PlatformStrings

theorem effective_eq_nil_of_isEmpty {ps : PlatformStrings} (h : ps.isEmpty = true) (name : String) :
    ps.effective name = [] := by
  rw [isEmpty, Bool.and_eq_true, List.isEmpty_iff, List.all_eq_true] at h
  refine List.eq_nil_iff_forall_not_mem.mpr fun s hs => ?_
  rcases mem_effective.mp hs with hs | hs
  · rw [h.1] at hs
    cases hs
  · obtain ⟨values, hget, hs⟩ := mem_listed_iff.mp hs
    have hempty := h.2 values (StringMap.mem_values_iff.mpr ⟨name, hget⟩)
    rw [List.isEmpty_iff.mp hempty] at hs
    cases hs

end PlatformStrings

namespace Generated

variable {config : Config} {package : Package}

/-- The label of the condition that holds on a platform. -/
def conditionLabel (config : Config) (name : String) : String :=
  config.platformLabelPrefix ++ name

/-- Platforms with different names have different labels. -/
theorem conditionLabel_injective (config : Config) (a b : String)
    (h : config.platformLabelPrefix ++ a = config.platformLabelPrefix ++ b) : a = b :=
  String.append_right_inj _ |>.mp h

/-- The strings of an attribute value where the condition with the label holds; none when there is
no value. -/
def evalAt (label : String) : Option Value → Option (List String)
  | none => some []
  | some value => value.toExpr.evalAt label

/-- Strings for platforms evaluate at the label of a platform to those that hold on it. -/
@[simp]
theorem evalAt_platformValue (config : Config) (ps : PlatformStrings) (name : String) :
    evalAt (conditionLabel config name) (some (platformValue config ps)) =
      some (ps.effective name) := by
  rw [evalAt, platformValue, Value.toExpr, Value.evalAt_platformExpr, conditionLabel,
    PlatformStrings.effective, PlatformStrings.listed,
    StringMap.get?_ofList_map_key (conditionLabel_injective config), PlatformStrings.effective,
    PlatformStrings.listed]

/-! ## Attributes -/

/-- The value of the first attribute with the name. -/
def Attributes.get? (attributes : Attributes) (key : String) : Option Value :=
  attributes.values.lookup key

@[simp]
theorem get?_append (a b : Attributes) (key : String) :
    (a.append b).get? key = (a.get? key).or (b.get? key) :=
  List.lookup_append

theorem get?_attr (k key : String) (value : Value) :
    (attr k value).get? key = if key = k then some value else none := by
  rw [attr, Attributes.get?, List.lookup_cons]
  by_cases h : key = k
  · simp [h]
  · have hne : (key == k) = false := by simpa using h
    simp [hne, h]

@[simp]
theorem get?_onlyIf (condition : Bool) (attributes : Attributes) (key : String) :
    (onlyIf condition attributes).get? key = if condition then attributes.get? key else none := by
  cases condition <;> rfl

@[simp]
theorem get?_srcs (target : Target) (key : String) :
    (srcs config target).get? key =
      if key = "srcs" then some (platformValue config target.sources) else none :=
  get?_attr _ _ _

@[simp]
theorem get?_flags (k : String) (ps : PlatformStrings) (key : String) :
    (flags config k ps).get? key =
      if ps.isEmpty = false then if key = k then some (platformValue config ps) else none
      else none := by
  rw [flags, get?_onlyIf, get?_attr]
  cases ps.isEmpty <;> rfl

@[simp]
theorem get?_onLibrary {condition : Bool} {name key : String} (hkey : key ≠ "library") :
    (onLibrary condition name).get? key = none := by
  rw [onLibrary, get?_onlyIf, get?_attr, if_neg hkey, ite_self]

@[simp]
theorem get?_testData {key : String} (hkey : key ≠ "data") :
    (testData package).get? key = none := by
  rw [testData, get?_onlyIf, get?_attr, if_neg hkey, ite_self]

@[simp]
theorem get?_visibility {scope key : String} (hkey : key ≠ "visibility") :
    (visibility scope).get? key = none := by
  rw [visibility, get?_attr, if_neg hkey]

/-- The labels of the imports of a target, as dependencies. -/
def depLabels (config : Config) (package : Package) (target : Target) : PlatformStrings :=
  (target.imports.map (labelOf config package)).1.clean

@[simp]
theorem get?_deps (target : Target) (key : String) :
    (deps config package target).get? key =
      if key = "deps" ∧ (depLabels config package target).isEmpty = false then
        some (platformValue config (depLabels config package target))
      else none := by
  have hvalues : (deps config package target).values =
      if (depLabels config package target).isEmpty then []
      else [("deps", platformValue config (depLabels config package target))] := rfl
  rw [Attributes.get?, hvalues]
  cases (depLabels config package target).isEmpty with
  | true => simp
  | false =>
    by_cases h : key = "deps" <;> simp [h]

/-- The dependencies on a platform are the labels of the imports that hold there. -/
theorem mem_effective_depLabels {target : Target} {name label : String} :
    label ∈ (depLabels config package target).effective name ↔
      ∃ path ∈ target.imports.effective name, labelOf config package path = .ok label := by
  rw [depLabels, PlatformStrings.mem_effective_clean, PlatformStrings.mem_effective_map]

/-- An attribute that is left out when its strings are empty evaluates as if it were there. -/
@[simp]
theorem evalAt_unlessEmpty (config : Config) (ps : PlatformStrings) (name : String) :
    evalAt (conditionLabel config name)
        (if ps.isEmpty = false then some (platformValue config ps) else none) =
      some (ps.effective name) := by
  cases h : ps.isEmpty with
  | true => simp [evalAt, PlatformStrings.effective_eq_nil_of_isEmpty h]
  | false => simp

/-- The first of several attributes with the name, one list after the other. -/
@[simp]
theorem findSome?_get?_cons (a : Attributes) (rest : List Attributes) (key : String) :
    ((a :: rest).findSome? fun a => a.get? key) =
      (a.get? key).or (rest.findSome? fun a => a.get? key) := by
  rw [List.findSome?_cons]
  cases a.get? key <;> rfl

theorem get?_foldl_append (attributes : List Attributes) (start : Attributes) (key : String) :
    (attributes.foldl Attributes.append start).get? key =
      (start.get? key).or (attributes.findSome? fun a => a.get? key) := by
  induction attributes generalizing start with
  | nil => simp
  | cons a rest ih =>
    rw [List.foldl_cons, ih, get?_append, Option.or_assoc, findSome?_get?_cons]

/-! ## Rules -/

variable {condition : Bool} {kind name key : String} {attributes : List Attributes} {r : Rule}

theorem kind_of_mem_rule (h : r ∈ (rule condition kind name attributes).rules) : r.kind = kind := by
  rw [rule] at h
  split at h
  · rw [List.mem_singleton.mp h]
    rfl
  · cases h

/-- The attributes of a rule after its name. -/
theorem attr?_of_mem_rule (h : r ∈ (rule condition kind name attributes).rules)
    (key : String) :
    r.attr? key = (((attr "name" (.string name)).get? key).or
      (attributes.findSome? fun a => a.get? key)).map Value.toExpr := by
  rw [rule] at h
  split at h
  · rw [List.mem_singleton.mp h, Rule.attr?_ofValues, ← Attributes.get?, get?_foldl_append]
  · cases h

theorem name?_of_mem_rule (h : r ∈ (rule condition kind name attributes).rules) :
    r.name? = some name := by
  rw [Rule.name?, attr?_of_mem_rule h, get?_attr, if_pos rfl]
  rfl

/-- An attribute of a rule evaluates as its value does. -/
theorem evalAt_of_mem_rule (h : r ∈ (rule condition kind name attributes).rules)
    (hkey : key ≠ "name") (label : String) :
    r.evalAt label key = evalAt label (attributes.findSome? fun a => a.get? key) := by
  rw [Rule.evalAt, attr?_of_mem_rule h, get?_attr, if_neg hkey, Option.none_or]
  cases attributes.findSome? fun a => a.get? key <;> rfl

end Generated

namespace Package.Role

/-- The kind of the rule of a target. -/
def kind : Role → String
  | library => "go_library"
  | cgoLibrary => "cgo_library"
  | binary => "go_binary"
  | test | externalTest => "go_test"

/-- The name of the rule of a target. -/
def ruleName (package : Package) : Role → String
  | library => Label.libraryName
  | cgoLibrary => Generated.cgoLibraryName
  | binary => Generated.commandName package
  | test => Generated.testName
  | externalTest => Generated.externalTestName

/-- The rule is the one of the target, by its kind and its name. -/
def IsRule (role : Role) (package : Package) (rule : Rule) : Prop :=
  rule.kind = role.kind ∧ rule.name? = some (role.ruleName package)

instance (role : Role) (package : Package) (rule : Rule) : Decidable (role.IsRule package rule) :=
  inferInstanceAs (Decidable (_ ∧ _))

/-- What is generated for a target. -/
def generated (config : Config) (package : Package) : Role → Generated
  | library => Generated.library config package
  | cgoLibrary => Generated.cgoLibrary config package
  | binary => Generated.binary config package
  | test => Generated.test config package
  | externalTest => Generated.externalTest config package

/-- The rule of the target stands for it on the platform `name`. -/
structure Denotes (config : Config) (package : Package) (role : Role) (rule : Rule)
    (name : String) : Prop where
  srcs : rule.evalAt (Generated.conditionLabel config name) "srcs" =
    some ((role.target package).sources.effective name)
  copts : role = .cgoLibrary → rule.evalAt (Generated.conditionLabel config name) "copts" =
    some ((role.target package).copts.effective name)
  clinkopts : role = .cgoLibrary → rule.evalAt (Generated.conditionLabel config name) "clinkopts" =
    some ((role.target package).clinkopts.effective name)
  deps : ∃ labels, rule.evalAt (Generated.conditionLabel config name) "deps" = some labels ∧
    ∀ label, label ∈ labels ↔ ∃ path ∈ (role.target package).imports.effective name,
      (Label.resolve config.goPrefix path package.rel).map Label.text = .ok label

variable {config : Config} {package : Package} {role : Role} {rule : Rule}

theorem isRule_of_mem_generated (h : rule ∈ (role.generated config package).rules) :
    role.IsRule package rule := by
  cases role <;> exact ⟨Generated.kind_of_mem_rule h, Generated.name?_of_mem_rule h⟩

/-- A kind and a name belong to the rule of one target only. -/
theorem eq_of_isRule {other : Role} (h : role.IsRule package rule)
    (hother : other.IsRule package rule) : role = other := by
  have hkind : role.kind = other.kind := h.1.symm.trans hother.1
  have hname : role.ruleName package = other.ruleName package :=
    Option.some.inj (h.2.symm.trans hother.2)
  have htests : Generated.testName ≠ Generated.externalTestName := by decide
  cases role <;> cases other <;>
    first
    | rfl
    | exact absurd hkind (by decide)
    | exact absurd hname htests
    | exact absurd hname.symm htests

theorem rules_generate (config : Config) (package : Package) :
    (package.generate config).rules =
      (Generated.protoGroup package).rules ++ ((cgoLibrary.generated config package).rules ++
        ((library.generated config package).rules ++ ((binary.generated config package).rules ++
          ((test.generated config package).rules ++
            (externalTest.generated config package).rules)))) := by
  simp [generate, generated]

/-- The rules of a package: the group of its `.proto` files and those of its targets. -/
theorem mem_rules_generate_iff :
    rule ∈ (package.generate config).rules ↔
      rule ∈ (Generated.protoGroup package).rules ∨
        ∃ role : Role, rule ∈ (role.generated config package).rules := by
  rw [rules_generate]
  simp only [List.mem_append]
  refine or_congr_right ⟨?_, ?_⟩
  · rintro (h | h | h | h | h)
    · exact ⟨.cgoLibrary, h⟩
    · exact ⟨.library, h⟩
    · exact ⟨.binary, h⟩
    · exact ⟨.test, h⟩
    · exact ⟨.externalTest, h⟩
  · rintro ⟨role, h⟩
    cases role with
    | library => exact .inr (.inl h)
    | cgoLibrary => exact .inl h
    | binary => exact .inr (.inr (.inl h))
    | test => exact .inr (.inr (.inr (.inl h)))
    | externalTest => exact .inr (.inr (.inr (.inr h)))

/-- The dependencies of a rule, from the attribute that it has for them. -/
theorem denotes_deps {name : String}
    (h : rule.evalAt (Generated.conditionLabel config name) "deps" =
      some ((Generated.depLabels config package (role.target package)).effective name)) :
    ∃ labels, rule.evalAt (Generated.conditionLabel config name) "deps" = some labels ∧
      ∀ label, label ∈ labels ↔ ∃ path ∈ (role.target package).imports.effective name,
        (Label.resolve config.goPrefix path package.rel).map Label.text = .ok label :=
  ⟨_, h, fun _ => Generated.mem_effective_depLabels⟩

open Generated in
/-- The rule that is generated for a target stands for it; a program without sources of its own has
none in its rule. -/
theorem denotes_of_mem_generated (h : rule ∈ (role.generated config package).rules)
    (hbinary : role = .binary → package.binary.hasGo = true) (name : String) :
    role.Denotes config package rule name := by
  -- The sources of a library may be empty and those of a program missing from the rule; the rest is
  -- read off.
  cases role with
  | library =>
    refine ⟨?_, nofun, nofun, denotes_deps ?_⟩ <;> rw [evalAt_of_mem_rule h (by decide)]
    · simp [target]
    · simp [target]
  | cgoLibrary =>
    refine ⟨?_, fun _ => ?_, fun _ => ?_, denotes_deps ?_⟩ <;>
      rw [evalAt_of_mem_rule h (by decide)]
    · simp [target]
    · simp [target]
    · simp [target]
    · simp [target]
  | binary =>
    have hgo : package.binary.hasGo = true := hbinary rfl
    refine ⟨?_, nofun, nofun, denotes_deps ?_⟩ <;> rw [evalAt_of_mem_rule h (by decide)]
    · simp [target, hgo]
    · simp [target, hgo]
  | test =>
    refine ⟨?_, nofun, nofun, denotes_deps ?_⟩ <;> rw [evalAt_of_mem_rule h (by decide)]
    · simp [target]
    · simp [target]
  | externalTest =>
    refine ⟨?_, nofun, nofun, denotes_deps ?_⟩ <;> rw [evalAt_of_mem_rule h (by decide)]
    · simp [target]
    · simp [target]

end Package.Role

namespace Package

variable {config : Config} {package : Package} {rule : Rule}

/-- A rule is the group of the `.proto` files or the rule of a target. -/
theorem kind_or_exists_isRule (h : rule ∈ (package.generate config).rules) :
    rule.kind = "filegroup" ∨ ∃ role : Role, role.IsRule package rule := by
  rcases Role.mem_rules_generate_iff.mp h with h | ⟨role, h⟩
  · exact .inl (Generated.kind_of_mem_rule h)
  · exact .inr ⟨role, Role.isRule_of_mem_generated h⟩

/-- The rule of a target among those of the package is the one that is generated for the target. -/
theorem mem_generated_of_isRule {role : Role} (h : rule ∈ (package.generate config).rules)
    (hrole : role.IsRule package rule) : rule ∈ (role.generated config package).rules := by
  rcases Role.mem_rules_generate_iff.mp h with h | ⟨other, h⟩
  · have hkind : role.kind = "filegroup" := hrole.1.symm.trans (Generated.kind_of_mem_rule h)
    cases role <;> exact absurd hkind (by decide)
  · rwa [Role.eq_of_isRule hrole (Role.isRule_of_mem_generated h)]

/-- **Generated rules stand for the package.** Every rule that is not the group of the `.proto`
files is the rule of a target, and it evaluates on every platform to what the target holds there:
its sources, the flags of a cgo library, and the labels of its imports. The rule of a program
without sources of its own has neither sources nor dependencies. -/
theorem generate_denotes_package (config : Config) (package : Package) :
    ∀ rule ∈ (package.generate config).rules,
      (rule.kind = "filegroup" ∨ ∃ role : Role, role.IsRule package rule) ∧
      ∀ role : Role, role.IsRule package rule →
        (role = .binary → package.binary.hasGo = true) →
        ∀ name, role.Denotes config package rule name := by
  intro rule h
  refine ⟨kind_or_exists_isRule h, fun role hrole hbinary name => ?_⟩
  exact Role.denotes_of_mem_generated (mem_generated_of_isRule h hrole) hbinary name

/-- A library with a source for Linux, where it imports another package of the repository. -/
def linuxLibrary : Package where
  name := "d"
  dir := .ofText "/repo/d"
  rel := "d"
  library :=
    { sources := { generic := ["a.go"], platform := StringMap.ofList [("linux", ["b_linux.go"])] }
      imports := { platform := StringMap.ofList [("linux", ["example.com/repo/e"])] } }

theorem generate_denotes_package_linuxLibrary :
    let config : Config := { goPrefix := "example.com/repo", repoRoot := .ofText "/repo" }
    let linux := Generated.conditionLabel config "linux"
    ∃ rule ∈ (linuxLibrary.generate config).rules, Role.library.IsRule linuxLibrary rule ∧
      rule.evalAt linux "srcs" = some ["a.go", "b_linux.go"] ∧
      ∃ labels, rule.evalAt linux "deps" = some labels ∧ "//e:go_default_library" ∈ labels := by
  intro config linux
  obtain ⟨rule, hmem, hrole⟩ : ∃ rule ∈ (linuxLibrary.generate config).rules,
      Role.library.IsRule linuxLibrary rule := by decide
  have denotes := (generate_denotes_package config linuxLibrary rule hmem).2 .library hrole nofun
    "linux"
  obtain ⟨labels, hlabels, hmem_labels⟩ := denotes.deps
  have hfault : Label.fault? "example.com/repo/e" = none := by decide
  have hlocal : Label.localPath? "example.com/repo" "example.com/repo/e" = some "e" := by decide
  have hresolve : (Label.resolve config.goPrefix "example.com/repo/e" linuxLibrary.rel).map
      Label.text = .ok "//e:go_default_library" := by
    rw [Label.resolve, hfault, hlocal]
    rfl
  refine ⟨rule, hmem, hrole, denotes.srcs.trans (by decide), labels, hlabels, ?_⟩
  exact (hmem_labels _).mpr ⟨"example.com/repo/e", by decide, hresolve⟩

end Package

end GoBuildRules
