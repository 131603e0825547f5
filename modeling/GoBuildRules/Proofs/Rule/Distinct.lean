import GoBuildRules.Proofs.PlatformStrings.Canonical
import GoBuildRules.Proofs.Rule.Denotation

/-!
# Lists of rules without repetition

A build tool refuses a list that names one thing twice. The lists of a clean package hold no string
twice on any platform (`Package.IsClean`), and the labels of imports are clean again after they are
made, so the attributes of the generated rules repeat nothing either (`generate_clean_nodup`), even
where several imports have one label.

* `Attributes.IsDistinct`: no list among the attributes of a rule repeats a string on a platform,
  with one lemma for each kind of attribute.
-/

namespace GoBuildRules

open Package

/-- All strings of the target are canonical. -/
def Target.IsClean (target : Target) : Prop :=
  ∀ part : Target.Part, (part.strings target).IsCanonical

/-- All strings of the targets are canonical, and no `.proto` file is there twice. -/
structure Package.IsClean (package : Package) : Prop where
  targets : ∀ role : Role, (role.target package).IsClean
  protos : package.protos.Nodup

theorem Package.isClean_clean (package : Package) : package.clean.IsClean := by
  refine ⟨fun role part => ?_, StringMap.nodup_of_ascending (StringSet.ascending _)⟩
  rw [target_clean, Target.strings_clean]
  exact PlatformStrings.isCanonical_clean _

namespace Generated

variable {config : Config} {package : Package} {target : Target}

/-- The attributes of rules that are lists of strings. -/
def listKeys : List String := ["srcs", "copts", "clinkopts", "deps"]

/-- On every platform the value is a list of strings without repetition. -/
def IsDistinctValue (config : Config) (value : Value) : Prop :=
  ∀ name, ∃ strings,
    evalAt (conditionLabel config name) (some value) = some strings ∧ strings.Nodup

theorem isDistinctValue_platformValue {ps : PlatformStrings} (h : ps.IsCanonical) :
    IsDistinctValue config (platformValue config ps) :=
  fun name => ⟨_, evalAt_platformValue config ps name, h.nodup_effective name⟩

theorem isDistinctValue_strings {values : List String} (h : values.Nodup) :
    IsDistinctValue config (.strings values) := by
  refine fun name => ⟨values, ?_, h⟩
  rw [evalAt, Value.toExpr_strings, Expr.evalAt_strings]

/-- No list of strings among the attributes has a repetition on any platform. -/
def Attributes.IsDistinct (config : Config) (attributes : Attributes) : Prop :=
  ∀ key ∈ listKeys, ∀ value, attributes.get? key = some value → IsDistinctValue config value

theorem Attributes.IsDistinct.append {a b : Attributes} (ha : a.IsDistinct config)
    (hb : b.IsDistinct config) : (a.append b).IsDistinct config := by
  intro key hkey value hget
  rw [get?_append, Option.or_eq_some_iff] at hget
  rcases hget with hget | ⟨-, hget⟩
  · exact ha key hkey value hget
  · exact hb key hkey value hget

theorem Attributes.IsDistinct.onlyIf {attributes : Attributes} (h : attributes.IsDistinct config)
    (condition : Bool) : (onlyIf condition attributes).IsDistinct config := by
  intro key hkey value hget
  rw [get?_onlyIf, Option.ite_none_right_eq_some] at hget
  exact h key hkey value hget.2

theorem isDistinct_attr {k : String} {value : Value} (h : IsDistinctValue config value) :
    (attr k value).IsDistinct config := by
  intro key _ other hget
  rw [get?_attr, Option.ite_none_right_eq_some] at hget
  exact Option.some.inj hget.2 ▸ h

theorem isDistinct_attr_of_notMem {k : String} (hkey : k ∉ listKeys) (value : Value) :
    (attr k value).IsDistinct config := by
  rintro key hmem other hget
  rw [get?_attr, Option.ite_none_right_eq_some] at hget
  exact absurd (hget.1 ▸ hmem) hkey

theorem isDistinct_srcs (h : target.IsClean) : (srcs config target).IsDistinct config :=
  isDistinct_attr (isDistinctValue_platformValue (h .sources))

theorem isDistinct_flags {ps : PlatformStrings} (h : ps.IsCanonical) (key : String) :
    (flags config key ps).IsDistinct config :=
  (isDistinct_attr (isDistinctValue_platformValue h)).onlyIf _

/-- Imports with one label do not repeat it, since labels are clean again after they are made. -/
theorem isDistinct_deps (config : Config) (package : Package) (target : Target) :
    (deps config package target).IsDistinct config := by
  intro key _ value hget
  rw [get?_deps, Option.ite_none_right_eq_some] at hget
  exact Option.some.inj hget.2 ▸
    isDistinctValue_platformValue (PlatformStrings.isCanonical_clean _)

theorem isDistinct_visibility (scope : String) : (visibility scope).IsDistinct config :=
  isDistinct_attr_of_notMem (by decide) _

theorem isDistinct_onLibrary (condition : Bool) (name : String) :
    (onLibrary condition name).IsDistinct config :=
  (isDistinct_attr_of_notMem (by decide) _).onlyIf _

theorem isDistinct_testData (package : Package) : (testData package).IsDistinct config :=
  (isDistinct_attr_of_notMem (by decide) _).onlyIf _

/-- A rule with such attributes has no list with a repetition on any platform. -/
theorem exists_nodup_of_mem_rule {condition : Bool} {kind name key : String}
    {attributes : List Attributes} {r : Rule}
    (h : r ∈ (rule condition kind name attributes).rules)
    (hdistinct : ∀ a ∈ attributes, a.IsDistinct config) (hkey : key ∈ listKeys)
    (platform : String) :
    ∃ strings, r.evalAt (conditionLabel config platform) key = some strings ∧ strings.Nodup := by
  have hname : key ≠ "name" := by
    rintro rfl
    exact absurd hkey (by decide)
  rw [evalAt_of_mem_rule h hname]
  cases hfind : attributes.findSome? fun a => a.get? key with
  | none => exact ⟨[], rfl, List.nodup_nil⟩
  | some value =>
    obtain ⟨a, ha, hget⟩ := List.exists_of_findSome?_eq_some hfind
    exact hdistinct a ha key hkey value hget platform

end Generated

namespace Package

variable {config : Config} {package : Package} {rule : Rule} {key : String}

open Generated in
/-- The rule of a target of a clean package has no list with a repetition. -/
theorem Role.exists_nodup_of_mem_generated (hclean : package.IsClean) {role : Role}
    (h : rule ∈ (role.generated config package).rules) (hkey : key ∈ listKeys) (name : String) :
    ∃ strings, rule.evalAt (conditionLabel config name) key = some strings ∧ strings.Nodup := by
  have htarget := hclean.targets role
  have hsrcs : (srcs config (role.target package)).IsDistinct config := isDistinct_srcs htarget
  have hdeps : (deps config package (role.target package)).IsDistinct config :=
    isDistinct_deps config package _
  cases role
  all_goals
    refine exists_nodup_of_mem_rule h ?_ hkey name
    simp only [List.forall_mem_cons]
  case library =>
    exact ⟨hsrcs.onlyIf _, isDistinct_onLibrary _ _, hdeps, isDistinct_visibility _, by simp⟩
  case cgoLibrary =>
    exact ⟨hsrcs, isDistinct_flags (htarget .copts) _, isDistinct_flags (htarget .clinkopts) _,
      hdeps, isDistinct_visibility _, by simp⟩
  case binary =>
    exact ⟨(hsrcs.append hdeps).onlyIf _, isDistinct_onLibrary _ _, isDistinct_visibility _,
      by simp⟩
  case test =>
    exact ⟨hsrcs, isDistinct_onLibrary _ _, hdeps, isDistinct_testData _, by simp⟩
  case externalTest =>
    exact ⟨hsrcs, hdeps, isDistinct_testData _, by simp⟩

/-- The rules of a clean package have no list with a repetition. -/
theorem exists_nodup_of_mem_generate (hclean : package.IsClean)
    (h : rule ∈ (package.generate config).rules) (hkey : key ∈ Generated.listKeys)
    (name : String) : ∃ strings,
      rule.evalAt (Generated.conditionLabel config name) key = some strings ∧ strings.Nodup := by
  rcases Role.mem_rules_generate_iff.mp h with h | ⟨role, h⟩
  · refine Generated.exists_nodup_of_mem_rule h ?_ hkey name
    rw [List.forall_mem_singleton]
    exact Generated.isDistinct_attr (Generated.isDistinctValue_strings hclean.protos)
  · exact Role.exists_nodup_of_mem_generated hclean h hkey name

/-- **Generated lists repeat nothing.** In a rule of a clean package, the sources, the flags and the
dependencies on any platform are lists of strings without repetition. So a label is there once,
however many imports that hold on the platform have it. -/
theorem generate_clean_nodup (config : Config) (package : Package) :
    ∀ rule ∈ (package.clean.generate config).rules, ∀ name,
      (∀ key ∈ Generated.listKeys, ∃ strings,
        rule.evalAt (Generated.conditionLabel config name) key = some strings ∧ strings.Nodup) ∧
      ∀ role : Role, role.IsRule package.clean rule →
        (role = .binary → package.clean.binary.hasGo = true) →
        ∀ path ∈ (role.target package.clean).imports.effective name, ∀ label,
          Label.resolve config.goPrefix path package.rel = .ok label →
            ∃ labels, rule.evalAt (Generated.conditionLabel config name) "deps" = some labels ∧
              labels.count label.text = 1 := by
  intro rule h name
  have hnodup : ∀ key ∈ Generated.listKeys, ∃ strings,
      rule.evalAt (Generated.conditionLabel config name) key = some strings ∧ strings.Nodup :=
    fun key hkey => exists_nodup_of_mem_generate (isClean_clean package) h hkey name
  refine ⟨hnodup, fun role hrole hbinary path hpath label hlabel => ?_⟩
  -- The dependencies have the label, and they repeat nothing, so it is there once.
  obtain ⟨labels, hlabels, hmem⟩ := (Role.denotes_of_mem_generated
    (mem_generated_of_isRule h hrole) hbinary name).deps
  obtain ⟨strings, hstrings, hdistinct⟩ := hnodup "deps" (by decide)
  obtain rfl : strings = labels := Option.some.inj (hstrings.symm.trans hlabels)
  have hresolve : (Label.resolve config.goPrefix path package.clean.rel).map Label.text =
      .ok label.text := by
    rw [show package.clean.rel = package.rel from rfl, hlabel]
    rfl
  refine ⟨strings, hstrings, ?_⟩
  rw [hdistinct.count, if_pos ((hmem label.text).mpr ⟨path, hpath, hresolve⟩)]

/-- A library that imports two paths with one label, the second one only on Linux. -/
def oneLabelTwice : Package where
  name := "d"
  dir := .ofText "/repo/d"
  rel := "d"
  library :=
    { sources := { generic := ["a.go", "a.go"] }
      imports := { generic := ["github.com/a-b"]
                   platform := StringMap.ofList [("linux", ["github.com/a.b"])] } }

theorem generate_clean_nodup_oneLabelTwice :
    let config : Config := { goPrefix := "", repoRoot := .ofText "/repo" }
    let linux := Generated.conditionLabel config "linux"
    let paths := ["github.com/a-b", "github.com/a.b"]
    ∃ rule ∈ (oneLabelTwice.clean.generate config).rules,
      Role.library.IsRule oneLabelTwice.clean rule ∧
      (∃ srcs, rule.evalAt linux "srcs" = some srcs ∧ srcs.Nodup) ∧
      (∀ path ∈ paths, path ∈ oneLabelTwice.clean.library.imports.effective "linux") ∧
      (∀ path ∈ paths, Label.resolve "" path "d" = .ok (.external "com_github_a_b" "")) ∧
      ∃ labels, rule.evalAt linux "deps" = some labels ∧
        labels.count "@com_github_a_b//:go_default_library" = 1 := by
  intro config linux paths
  obtain ⟨rule, hmem, hrole⟩ : ∃ rule ∈ (oneLabelTwice.clean.generate config).rules,
      Role.library.IsRule oneLabelTwice.clean rule := by decide +kernel
  have himports : ∀ path ∈ paths,
      path ∈ oneLabelTwice.clean.library.imports.effective "linux" := by decide +kernel
  have hdash : Label.resolve "" "github.com/a-b" "d" = .ok (.external "com_github_a_b" "") := by
    rfl
  have hdot : Label.resolve "" "github.com/a.b" "d" = .ok (.external "com_github_a_b" "") := by
    rfl
  obtain ⟨hlists, hdeps⟩ := generate_clean_nodup config oneLabelTwice rule hmem "linux"
  exact ⟨rule, hmem, hrole, hlists "srcs" (by decide), himports,
    List.forall_mem_cons.mpr ⟨hdash, List.forall_mem_singleton.mpr hdot⟩,
    hdeps .library hrole nofun "github.com/a.b" (himports _ (by decide)) _ hdot⟩

end Package

end GoBuildRules
