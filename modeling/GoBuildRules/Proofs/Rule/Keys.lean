import GoBuildRules.Proofs.Rule.Conditional
import GoBuildRules.Proofs.Rule.Denotation

/-!
# Keys of dictionaries

A build file with a key twice in one dictionary cannot be read. The branches of a `select` have
their conditions from a map, so they differ, but after them the default branch is always added. So
the keys of a dictionary differ unless the map has the condition of the default branch itself, and
this one is there twice then (`Value.keys_cases`). In the rules of a package the conditions are the
labels of its platforms (`Generated.IsOfPlatforms`), of which one may be this condition when the
prefix of the labels allows it.
-/

namespace GoBuildRules

/-- The keys of the entries differ from each other. -/
def Expr.HasDistinctKeys (entries : List (Expr × Expr)) : Prop :=
  (entries.map Prod.fst).Nodup

instance (entries : List (Expr × Expr)) : Decidable (Expr.HasDistinctKeys entries) :=
  inferInstanceAs (Decidable (List.Nodup _))

/-- The condition of the default branch is a key twice, and no other key is. -/
def Expr.HasDefaultTwice (entries : List (Expr × Expr)) : Prop :=
  (entries.map Prod.fst).count (.string "//conditions:default") = 2 ∧
    ∀ key ≠ .string "//conditions:default", (entries.map Prod.fst).count key ≤ 1

namespace Value

variable {v : Value} {entries : List (Expr × Expr)} {multiline : Bool}
  {branches : StringMap Value}

/-- Every dictionary in the expression of a value is the one of the branches of a value in it. -/
theorem exists_branches_of_occursIn (h : (Expr.dict entries multiline).OccursIn v.toExpr) :
    ∃ (source : Value) (branches : StringMap Value), source.OccursIn v ∧
      source.branches? = some branches ∧ .dict entries multiline = selectDict branches := by
  rcases h.eq_or_mem_parts with heq | ⟨p, hp, hmem⟩
  · have hdict : v.toExpr.IsDict := heq ▸ trivial
    exact absurd hdict (not_isDict_toExpr v)
  · have hprescribes := everywhere_prescribes v p hp
    obtain ⟨source, branches, hsource, hbranches, -, hargs⟩ :=
      hprescribes.select _ (hprescribes.dict entries multiline hmem)
    exact ⟨source, branches, hsource, hbranches, (List.cons.inj hargs).1⟩

/-- The keys of the dictionary for branches. -/
theorem keys_selectDict (h : .dict entries multiline = selectDict branches) :
    entries.map Prod.fst =
      branches.keys.map .string ++ [.string "//conditions:default"] := by
  rw [(Expr.dict.inj h).1, StringMap.keys]
  simp [Function.comp_def]

theorem nodup_map_string (branches : StringMap Value) :
    (branches.keys.map Expr.string).Nodup :=
  List.Pairwise.map _ (fun _ _ hne heq => hne (Expr.string.inj heq))
    (StringMap.nodup_keys branches)

/-- The keys differ unless the condition of the default branch is among those of the branches. -/
theorem keys_cases (h : .dict entries multiline = selectDict branches) :
    "//conditions:default" ∉ branches.keys ∧ Expr.HasDistinctKeys entries ∨
      "//conditions:default" ∈ branches.keys ∧ Expr.HasDefaultTwice entries := by
  have hnodup := nodup_map_string branches
  rw [Expr.HasDistinctKeys, Expr.HasDefaultTwice, keys_selectDict h]
  by_cases hmem : "//conditions:default" ∈ branches.keys
  · refine .inr ⟨hmem, ?_, fun key hkey => ?_⟩
    · rw [List.count_append, List.count_singleton_self, hnodup.count,
        if_pos (List.mem_map_of_mem hmem)]
    · rw [List.count_append, List.count_singleton, if_neg (by simpa using hkey.symm),
        hnodup.count]
      split <;> decide
  · refine .inl ⟨hmem, List.nodup_append.mpr ⟨hnodup, List.pairwise_singleton _ _, ?_⟩⟩
    rintro key hkey other hother rfl
    obtain ⟨condition, hcondition, rfl⟩ := List.mem_map.mp hkey
    rw [← Expr.string.inj (List.mem_singleton.mp hother).symm] at hcondition
    exact hmem hcondition

end Value

/-- Some strings of the package are for the platform. -/
def Package.ListsPlatform (package : Package) (name : String) : Prop :=
  ∃ (role : Role) (part : Target.Part),
    name ∈ (part.strings (role.target package)).platform.keys

/-- The platforms of cleaned strings and of mapped ones are among those of the strings. -/
theorem PlatformStrings.mem_keys_of_mem_keys_clean {ps : PlatformStrings} {name : String}
    (h : name ∈ ps.clean.platform.keys) : name ∈ ps.platform.keys := by
  obtain ⟨values, hget⟩ := StringMap.mem_keys_iff.mp h
  rw [clean, StringMap.get?_filterValues, StringMap.get?_mapValues,
    Option.filter_eq_some_iff, Option.map_eq_some_iff] at hget
  obtain ⟨⟨own, hown, -⟩, -⟩ := hget
  exact StringMap.mem_keys_iff.mpr ⟨own, hown⟩

namespace Generated

variable {config : Config} {package : Package} {value : Value}

/-! ## Conditions in attributes -/

/-- The branches in the value are for platforms of the package, under the labels of these. -/
def IsOfPlatforms (config : Config) (package : Package) (value : Value) : Prop :=
  ∀ (source : Value) (branches : StringMap Value), source.OccursIn value →
    source.branches? = some branches → ∀ condition ∈ branches.keys,
      ∃ name, package.ListsPlatform name ∧ condition = config.platformLabelPrefix ++ name

theorem isOfPlatforms_of_parts (hown : value.branches? = none)
    (h : ∀ u ∈ value.parts, IsOfPlatforms config package u) :
    IsOfPlatforms config package value := by
  intro source branches hsource hbranches
  cases hsource with
  | self => cases hown.symm.trans hbranches
  | part hpart hsource => exact h _ hpart source branches hsource hbranches

theorem isOfPlatforms_string (s : String) : IsOfPlatforms config package (.string s) :=
  isOfPlatforms_of_parts rfl nofun

theorem isOfPlatforms_strings (values : List String) :
    IsOfPlatforms config package (.strings values) := by
  refine isOfPlatforms_of_parts rfl fun u hu => ?_
  obtain ⟨s, -, rfl⟩ := List.mem_map.mp hu
  exact isOfPlatforms_string s

theorem isOfPlatforms_glob (patterns excludes : List String) :
    IsOfPlatforms config package (.glob patterns excludes) :=
  isOfPlatforms_of_parts rfl nofun

theorem isOfPlatforms_platformValue {ps : PlatformStrings}
    (h : ∀ name ∈ ps.platform.keys, package.ListsPlatform name) :
    IsOfPlatforms config package (platformValue config ps) := by
  intro source branches hsource hbranches condition hcondition
  cases hsource with
  | part hpart _ => cases hpart
  | self =>
    rw [platformValue, Value.branches?] at hbranches
    split at hbranches
    · cases hbranches
    · rw [← Option.some.inj hbranches] at hcondition
      obtain ⟨u, hget⟩ := StringMap.mem_keys_iff.mp hcondition
      rw [StringMap.get?_mapValues, Option.map_eq_some_iff] at hget
      obtain ⟨values, hget, -⟩ := hget
      obtain ⟨⟨name, own⟩, hmem, heq⟩ := List.mem_map.mp (StringMap.mem_of_get?_ofList hget)
      exact ⟨name, h name (List.mem_map_of_mem hmem), (Prod.mk.inj heq).1.symm⟩

/-- The branches in all the attributes are for platforms of the package. -/
def Attributes.AreOfPlatforms (config : Config) (package : Package) (attributes : Attributes) :
    Prop :=
  ∀ entry ∈ attributes.values, IsOfPlatforms config package entry.2

theorem Attributes.AreOfPlatforms.append {a b : Attributes} (ha : a.AreOfPlatforms config package)
    (hb : b.AreOfPlatforms config package) : (a.append b).AreOfPlatforms config package :=
  fun entry hentry => (List.mem_append.mp hentry).elim (ha entry) (hb entry)

theorem Attributes.AreOfPlatforms.onlyIf {attributes : Attributes}
    (h : attributes.AreOfPlatforms config package) (condition : Bool) :
    (onlyIf condition attributes).AreOfPlatforms config package := by
  cases condition with
  | true => exact h
  | false => exact nofun

theorem areOfPlatforms_attr (key : String) (h : IsOfPlatforms config package value) :
    (attr key value).AreOfPlatforms config package := by
  intro entry hentry
  rw [List.mem_singleton.mp hentry]
  exact h

theorem areOfPlatforms_srcs (role : Package.Role) :
    (srcs config (role.target package)).AreOfPlatforms config package :=
  areOfPlatforms_attr _ (isOfPlatforms_platformValue fun _ hname => ⟨role, .sources, hname⟩)

theorem areOfPlatforms_flags (key : String) (role : Package.Role) (part : Target.Part) :
    (flags config key (part.strings (role.target package))).AreOfPlatforms config package :=
  (areOfPlatforms_attr _
    (isOfPlatforms_platformValue fun _ hname => ⟨role, part, hname⟩)).onlyIf _

/-- Dependencies are for no other platforms than the imports that they come from. -/
theorem areOfPlatforms_deps (role : Package.Role) :
    (deps config package (role.target package)).AreOfPlatforms config package := by
  have hvalues : (deps config package (role.target package)).values =
      if (depLabels config package (role.target package)).isEmpty then []
      else [("deps", platformValue config (depLabels config package (role.target package)))] := rfl
  intro entry hentry
  rw [hvalues] at hentry
  split at hentry
  · cases hentry
  · rw [List.mem_singleton.mp hentry]
    refine isOfPlatforms_platformValue fun name hname => ⟨role, .imports, ?_⟩
    exact (PlatformStrings.isMapping_map _ _).keys ▸
      PlatformStrings.mem_keys_of_mem_keys_clean hname

theorem areOfPlatforms_visibility (scope : String) :
    (visibility scope).AreOfPlatforms config package :=
  areOfPlatforms_attr _ (isOfPlatforms_strings _)

theorem areOfPlatforms_onLibrary (condition : Bool) (name : String) :
    (onLibrary condition name).AreOfPlatforms config package :=
  (areOfPlatforms_attr _ (isOfPlatforms_string _)).onlyIf _

theorem areOfPlatforms_testData (package : Package) :
    (testData package).AreOfPlatforms config package :=
  (areOfPlatforms_attr _ (isOfPlatforms_glob _ _)).onlyIf _

/-! ## Dictionaries of rules -/

theorem mem_values_foldl_append {attributes : List Attributes} {start : Attributes}
    {entry : String × Value}
    (h : entry ∈ (attributes.foldl Attributes.append start).values) :
    entry ∈ start.values ∨ ∃ a ∈ attributes, entry ∈ a.values := by
  induction attributes generalizing start with
  | nil => exact .inl h
  | cons a rest ih =>
    rcases ih h with hstart | ⟨b, hb, hentry⟩
    · exact (List.mem_append.mp hstart).imp_right fun ha => ⟨a, List.mem_cons_self, ha⟩
    · exact .inr ⟨b, List.mem_cons_of_mem _ hb, hentry⟩

theorem dict_occursIn_keyword_iff {key : String} {e : Expr} {entries : List (Expr × Expr)}
    {multiline : Bool} : (Expr.dict entries multiline).OccursIn (Expr.keyword key e) ↔
      (Expr.dict entries multiline).OccursIn e := by
  refine ⟨fun h => ?_, fun h => .part (List.mem_cons_of_mem _ List.mem_cons_self) h⟩
  cases h with
  | part hpart h =>
    rcases List.mem_cons.mp hpart with rfl | hpart
    · cases h with
      | part hpart _ => cases hpart
    · exact List.mem_singleton.mp hpart ▸ h

/-- A dictionary in a rule is one in the value of an attribute. -/
theorem exists_entry_of_occursIn_rule {condition : Bool} {kind name : String}
    {attributes : List Attributes} {r : Rule} {entries : List (Expr × Expr)} {multiline : Bool}
    (hr : r ∈ (rule condition kind name attributes).rules)
    (h : (Expr.dict entries multiline).OccursIn r.call) :
    ∃ a ∈ attributes, ∃ entry ∈ a.values,
      (Expr.dict entries multiline).OccursIn entry.2.toExpr := by
  rw [rule] at hr
  split at hr
  · rw [List.mem_singleton.mp hr] at h
    cases h with
    | part hpart h =>
      -- The parts of a call are its name and its arguments, and an argument has its value as a
      -- part.
      rcases List.mem_cons.mp hpart with rfl | hpart
      · cases h with
        | part hpart _ => cases hpart
      · obtain ⟨⟨key, value⟩, hentry, rfl⟩ := List.mem_map.mp hpart
        have hvalue := dict_occursIn_keyword_iff.mp h
        rcases mem_values_foldl_append hentry with hname | ⟨a, ha, hentry⟩
        · rw [(Prod.mk.inj (List.mem_singleton.mp hname)).2] at hvalue
          cases hvalue with
          | part hpart _ => cases hpart
        · exact ⟨a, ha, _, hentry, hvalue⟩
  · cases hr

/-- The keys of a dictionary in a rule differ, unless a platform of the package has the condition of
the default branch as its label. -/
theorem keys_cases_of_mem_rule {condition : Bool} {kind name : String}
    {attributes : List Attributes} {r : Rule} {entries : List (Expr × Expr)} {multiline : Bool}
    (hr : r ∈ (rule condition kind name attributes).rules)
    (hattributes : ∀ a ∈ attributes, a.AreOfPlatforms config package)
    (h : (Expr.dict entries multiline).OccursIn r.call) :
    Expr.HasDistinctKeys entries ∨ Expr.HasDefaultTwice entries ∧
      ∃ name, package.ListsPlatform name ∧
        config.platformLabelPrefix ++ name = "//conditions:default" := by
  obtain ⟨a, ha, entry, hentry, hvalue⟩ := exists_entry_of_occursIn_rule hr h
  obtain ⟨source, branches, hsource, hbranches, heq⟩ := Value.exists_branches_of_occursIn hvalue
  rcases Value.keys_cases heq with ⟨-, hdistinct⟩ | ⟨hmem, htwice⟩
  · exact .inl hdistinct
  · obtain ⟨name, hname, hlabel⟩ :=
      hattributes a ha entry hentry source branches hsource hbranches _ hmem
    exact .inr ⟨htwice, name, hname, hlabel.symm⟩

end Generated

namespace Package

variable {config : Config} {package : Package} {rule : Rule} {entries : List (Expr × Expr)}
  {multiline : Bool}

open Generated in
theorem Role.keys_cases_of_mem_generated {role : Role}
    (hrule : rule ∈ (role.generated config package).rules)
    (h : (Expr.dict entries multiline).OccursIn rule.call) :
    Expr.HasDistinctKeys entries ∨ Expr.HasDefaultTwice entries ∧
      ∃ name, package.ListsPlatform name ∧
        config.platformLabelPrefix ++ name = "//conditions:default" := by
  have hsrcs : (srcs config (role.target package)).AreOfPlatforms config package :=
    areOfPlatforms_srcs role
  have hdeps : (deps config package (role.target package)).AreOfPlatforms config package :=
    areOfPlatforms_deps role
  -- Whatever the target, each of its attributes takes its labels from the platforms of the package.
  cases role
  all_goals
    refine keys_cases_of_mem_rule hrule ?_ h
    simp only [List.forall_mem_cons]
  case library =>
    exact ⟨hsrcs.onlyIf _, areOfPlatforms_onLibrary _ _, hdeps, areOfPlatforms_visibility _,
      by simp⟩
  case cgoLibrary =>
    exact ⟨hsrcs, areOfPlatforms_flags _ .cgoLibrary .copts,
      areOfPlatforms_flags _ .cgoLibrary .clinkopts, hdeps, areOfPlatforms_visibility _, by simp⟩
  case binary =>
    exact ⟨(hsrcs.append hdeps).onlyIf _, areOfPlatforms_onLibrary _ _,
      areOfPlatforms_visibility _, by simp⟩
  case test =>
    exact ⟨hsrcs, areOfPlatforms_onLibrary _ _, hdeps, areOfPlatforms_testData _, by simp⟩
  case externalTest =>
    exact ⟨hsrcs, hdeps, areOfPlatforms_testData _, by simp⟩

theorem keys_cases_of_mem_generate (hrule : rule ∈ (package.generate config).rules)
    (h : (Expr.dict entries multiline).OccursIn rule.call) :
    Expr.HasDistinctKeys entries ∨ Expr.HasDefaultTwice entries ∧
      ∃ name, package.ListsPlatform name ∧
        config.platformLabelPrefix ++ name = "//conditions:default" := by
  rcases Role.mem_rules_generate_iff.mp hrule with hrule | ⟨role, hrule⟩
  · refine Generated.keys_cases_of_mem_rule hrule ?_ h
    rw [List.forall_mem_singleton]
    exact Generated.areOfPlatforms_attr _ (Generated.isOfPlatforms_strings _)
  · exact Role.keys_cases_of_mem_generated hrule h

end Package

/-- **Only the default condition is a key twice.** The keys of a dictionary in the written form of a
value differ, unless the branches from which it is made have the condition of the default branch
themselves: this condition is there twice then, since the default branch is always added, and no
other one is. So a dictionary in a rule of a package has a condition twice only if it is this one,
and the prefix of the labels makes it the label of a platform of the package. -/
theorem dict_keys_differ_or_default_twice :
    (∀ (v : Value) entries multiline, (Expr.dict entries multiline).OccursIn v.toExpr →
      ∃ (source : Value) (branches : StringMap Value), source.OccursIn v ∧
        source.branches? = some branches ∧ .dict entries multiline = Value.selectDict branches ∧
        ("//conditions:default" ∉ branches.keys ∧ Expr.HasDistinctKeys entries ∨
          "//conditions:default" ∈ branches.keys ∧ Expr.HasDefaultTwice entries)) ∧
    ∀ (config : Config) (package : Package), ∀ rule ∈ (package.generate config).rules,
      ∀ entries multiline, (Expr.dict entries multiline).OccursIn rule.call →
        Expr.HasDistinctKeys entries ∨ Expr.HasDefaultTwice entries ∧
          ∃ name, package.ListsPlatform name ∧
            config.platformLabelPrefix ++ name = "//conditions:default" := by
  refine ⟨fun v entries multiline h => ?_, fun config package rule hrule entries multiline h =>
    Package.keys_cases_of_mem_generate hrule h⟩
  obtain ⟨source, branches, hsource, hbranches, heq⟩ := Value.exists_branches_of_occursIn h
  exact ⟨source, branches, hsource, hbranches, heq, Value.keys_cases heq⟩

/-- A library with one source for all platforms and one for the platform `default`. -/
def defaultPlatform : Package where
  name := "d"
  dir := .ofText "/repo/d"
  rel := "d"
  library :=
    { sources := { generic := ["a.go"]
                   platform := StringMap.ofList [("default", ["b.go"])] } }

/-- The one rule of the package has a dictionary with the label of the platform. -/
theorem exists_dict_defaultPlatform (config : Config) :
    ∃ rule ∈ (defaultPlatform.generate config).rules, ∃ entries multiline,
      (Expr.dict entries multiline).OccursIn rule.call ∧ entries.map Prod.fst =
        [.string (config.platformLabelPrefix ++ "default"), .string "//conditions:default"] := by
  obtain ⟨rule, hrules, lhs, entries, hsrcs, hkeys⟩ :
      ∃ rule, (defaultPlatform.generate config).rules = [rule] ∧ ∃ lhs entries,
        .keyword "srcs" (.binary lhs "+" (.call (.literal "select") [.dict entries true])) ∈
          rule.call.parts ∧ entries.map Prod.fst =
            [.string (config.platformLabelPrefix ++ "default"), .string "//conditions:default"] :=
    ⟨_, rfl, _, _, .tail _ (.tail _ (.head _)), rfl⟩
  have hsum : (Expr.dict entries true).OccursIn
      (.binary lhs "+" (.call (.literal "select") [.dict entries true])) :=
    .part (List.mem_cons_of_mem _ List.mem_cons_self)
      (.part (List.mem_cons_of_mem _ List.mem_cons_self) .self)
  exact ⟨rule, hrules ▸ List.mem_cons_self, entries, true,
    .part hsrcs (Generated.dict_occursIn_keyword_iff.mpr hsum), hkeys⟩

theorem dict_keys_differ_or_default_twice_defaultPlatform :
    let config : Config := { goPrefix := "", repoRoot := .ofText "/repo" }
    let v : Value := .list [.map [("x", .int 1), ("//conditions:default", .int 2)]]
    (∃ entries multiline, (Expr.dict entries multiline).OccursIn v.toExpr ∧
      Expr.HasDefaultTwice entries) ∧
    ∃ rule ∈ (defaultPlatform.generate config).rules, ∃ entries multiline,
      (Expr.dict entries multiline).OccursIn rule.call ∧ Expr.HasDistinctKeys entries := by
  intro config v
  obtain ⟨hvalues, hrules⟩ := dict_keys_differ_or_default_twice
  constructor
  · obtain ⟨entries, hoccurs, hrepeated⟩ : ∃ entries,
        (Expr.dict entries true).OccursIn v.toExpr ∧ ¬ Expr.HasDistinctKeys entries :=
      ⟨_, .part List.mem_cons_self (.part (List.mem_cons_of_mem _ List.mem_cons_self) .self),
        by decide⟩
    obtain ⟨source, branches, -, -, -, ⟨-, hdistinct⟩ | ⟨-, htwice⟩⟩ := hvalues v _ _ hoccurs
    · exact absurd hdistinct hrepeated
    · exact ⟨entries, true, hoccurs, htwice⟩
  · obtain ⟨rule, hrule, entries, multiline, hoccurs, hkeys⟩ := exists_dict_defaultPlatform config
    refine ⟨rule, hrule, entries, multiline, hoccurs, ?_⟩
    refine (hrules config defaultPlatform rule hrule _ _ hoccurs).resolve_right fun htwice => ?_
    have hcount := htwice.1.1
    rw [hkeys] at hcount
    exact absurd hcount (by decide)

/-- Where a map or a label has the condition of the default branch, a dictionary has it twice. -/
theorem not_hasDistinctKeys_of_ownDefault :
    let config : Config :=
      { goPrefix := "", repoRoot := .ofText "/repo", platformLabelPrefix := "//conditions:" }
    let v : Value := .map [("//conditions:default", .int 1)]
    (∃ entries multiline, (Expr.dict entries multiline).OccursIn v.toExpr ∧
      ¬ Expr.HasDistinctKeys entries) ∧
    ∃ rule ∈ (defaultPlatform.generate config).rules, ∃ entries multiline,
      (Expr.dict entries multiline).OccursIn rule.call ∧ ¬ Expr.HasDistinctKeys entries := by
  intro config v
  constructor
  · exact ⟨_, true, .part (List.mem_cons_of_mem _ List.mem_cons_self) .self, by decide⟩
  · obtain ⟨rule, hrule, entries, multiline, hoccurs, hkeys⟩ := exists_dict_defaultPlatform config
    refine ⟨rule, hrule, entries, multiline, hoccurs, fun hdistinct => ?_⟩
    rw [Expr.HasDistinctKeys, hkeys] at hdistinct
    exact absurd hdistinct (by decide)

end GoBuildRules
