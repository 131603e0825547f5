import GoBuildRules.Proofs.Rule.Conditional

/-!
# Reading a rule back

The attributes of a rule are not kept apart from its positional arguments: both stand in one list
of expressions, and those of the form `key = value` count as attributes. A rule has an attribute
exactly when such an argument is there, and the first one gives its value (`Rule.mem_attrKeys_iff`,
`Rule.attr?_eq_some_iff`). Since no value is written in this form, a rule made from values has the
attributes that it was given and no others (`Rule.attrs_ofValues`, `Rule.ofValues_readBack`).
-/

namespace GoBuildRules

namespace Expr

variable {e value : Expr} {key s : String}

theorem keyword?_eq_some_iff : e.keyword? = some (key, value) ↔ e = keyword key value := by
  constructor
  · intro h
    unfold keyword? at h
    split at h
    · obtain ⟨rfl, h⟩ := Option.ite_none_right_eq_some.mp h
      obtain ⟨rfl, rfl⟩ := Prod.mk.inj (Option.some.inj h)
      rfl
    · cases h
  · rintro rfl
    exact keyword?_keyword key value

theorem string?_eq_some_iff : e.string? = some s ↔ e = string s := by
  cases e <;> simp [string?]

end Expr

namespace Value

/-- No value is read as a keyword argument. -/
theorem keyword?_toExpr (v : Value) : v.toExpr.keyword? = none :=
  Option.eq_none_iff_forall_ne_some.mpr fun (key, value) h =>
    toExpr_ne_equals v (.literal key) value (Expr.keyword?_eq_some_iff.mp h)

/-- Only a string is written as a string. -/
theorem toExpr_eq_string_iff {v : Value} {s : String} : v.toExpr = .string s ↔ v = .string s := by
  constructor
  · intro h
    cases v with
    | string t => exact congrArg Value.string (Expr.string.inj h)
    | platformStrings ps =>
      rcases toExpr_platformStrings ps with ⟨heq, -⟩ | ⟨branches, -, -, heq | ⟨-, heq⟩⟩ <;>
        cases heq.symm.trans h
    | _ => cases h
  · rintro rfl
    rfl

end Value

namespace Rule

variable {rule : Rule} {key : String} {value : Expr}

/-! ## Any rule -/

/-- A key of a rule is the name of one of its keyword arguments. -/
theorem mem_attrKeys_iff : key ∈ rule.attrKeys ↔ ∃ value, Expr.keyword key value ∈ rule.args := by
  simp only [attrKeys, attrs, List.mem_map, List.mem_filterMap]
  constructor
  · rintro ⟨⟨key, value⟩, ⟨arg, harg, hkeyword⟩, rfl⟩
    exact ⟨value, Expr.keyword?_eq_some_iff.mp hkeyword ▸ harg⟩
  · rintro ⟨value, harg⟩
    exact ⟨(key, value), ⟨_, harg, Expr.keyword?_keyword key value⟩, rfl⟩

/-- The value of an attribute stands in the first keyword argument with its name. -/
theorem attr?_eq_some_iff : rule.attr? key = some value ↔
    ∃ before after, rule.args = before ++ Expr.keyword key value :: after ∧
      ∀ other, Expr.keyword key other ∉ before := by
  have hbefore : ∀ {l : List Expr}, (∀ entry ∈ l.filterMap Expr.keyword?, (key != entry.1) = true) ↔
      ∀ other, Expr.keyword key other ∉ l := by
    intro l
    constructor
    · intro h other hmem
      have hentry := List.mem_filterMap.mpr ⟨_, hmem, Expr.keyword?_keyword key other⟩
      exact absurd rfl (bne_iff_ne.mp (h _ hentry))
    · rintro h ⟨k, other⟩ hentry
      obtain ⟨arg, harg, hkeyword⟩ := List.mem_filterMap.mp hentry
      rw [bne_iff_ne]
      rintro rfl
      exact h other (Expr.keyword?_eq_some_iff.mp hkeyword ▸ harg)
  rw [attr?, attrs, List.lookup_eq_some_iff]
  constructor
  · rintro ⟨entries, later, heq, hfirst⟩
    obtain ⟨before, rest, hargs, rfl, hrest⟩ := List.filterMap_eq_append_iff.mp heq
    -- Arguments without a key can stand between the keyword arguments.
    obtain ⟨positional, arg, after, rfl, hnone, hkeyword, -⟩ := List.filterMap_eq_cons_iff.mp hrest
    obtain rfl := Expr.keyword?_eq_some_iff.mp hkeyword
    refine ⟨before ++ positional, after, by rw [hargs, List.append_assoc], hbefore.mp ?_⟩
    rwa [List.filterMap_append, List.filterMap_eq_nil_iff.mpr hnone, List.append_nil]
  · rintro ⟨before, after, hargs, hfirst⟩
    refine ⟨before.filterMap Expr.keyword?, after.filterMap Expr.keyword?, ?_, hbefore.mpr hfirst⟩
    rw [hargs, List.filterMap_append, List.filterMap_cons, Expr.keyword?_keyword]

/-! ## Rules made from values -/

/-- The attributes of a rule made from values are those that it was given. -/
theorem attrs_ofValues (kind : String) (args : List Value) (keywords : List (String × Value)) :
    (ofValues kind args keywords).attrs = keywords.map fun (key, v) => (key, v.toExpr) := by
  have hargs : (args.map Value.toExpr).filterMap Expr.keyword? = [] := by
    simp [Value.keyword?_toExpr]
  have hkeywords : Expr.keyword? ∘ (fun (key, v) => Expr.keyword key v.toExpr) =
      some ∘ fun (key, v) => (key, Value.toExpr v) :=
    funext fun (key, v) => Expr.keyword?_keyword key v.toExpr
  rw [attrs, ofValues, List.filterMap_append, hargs, List.nil_append, List.filterMap_map,
    hkeywords, List.filterMap_eq_map]

/-- An attribute of a rule made from values has the expression of the first value of its name. -/
theorem attr?_ofValues (kind key : String) (args : List Value) (keywords : List (String × Value)) :
    (ofValues kind args keywords).attr? key = (keywords.lookup key).map Value.toExpr := by
  rw [attr?, attrs_ofValues]
  induction keywords with
  | nil => rfl
  | cons keyword rest ih =>
    obtain ⟨k, v⟩ := keyword
    rw [List.map_cons, List.lookup_cons, List.lookup_cons, ih]
    split <;> rfl

theorem attrKeys_ofValues (kind : String) (args : List Value) (keywords : List (String × Value)) :
    (ofValues kind args keywords).attrKeys = keywords.map Prod.fst := by
  rw [attrKeys, attrs_ofValues, List.map_map]
  rfl

/-- A rule made from values has a name when the first value for it is a string. -/
theorem name?_ofValues_eq_some_iff {kind name : String} {args : List Value}
    {keywords : List (String × Value)} :
    (ofValues kind args keywords).name? = some name ↔
      keywords.lookup "name" = some (.string name) := by
  rw [name?, attr?_ofValues, Option.bind_eq_some_iff]
  constructor
  · rintro ⟨e, he, hname⟩
    obtain ⟨v, hv, rfl⟩ := Option.map_eq_some_iff.mp he
    rw [hv, Value.toExpr_eq_string_iff.mp (Expr.string?_eq_some_iff.mp hname)]
  · intro h
    exact ⟨.string name, congrArg (Option.map Value.toExpr) h, rfl⟩

/-- **A rule is read back as it was made.** A rule made from values has the kind, the positional
arguments and after them the keyword arguments that it was given, all in order. Its keys are the
names of the keyword arguments, so none of the positional ones counts as an attribute; an attribute
has the first value of its name, and the rule is named by the first `name` when that is a string.

In any rule, whatever its arguments are, an attribute has a value exactly when its name is a key,
and that is exactly when some argument is a keyword argument of this name. -/
theorem ofValues_readBack :
    (∀ (kind : String) (args : List Value) (keywords : List (String × Value)),
      let rule := ofValues kind args keywords
      rule.kind = kind ∧
        rule.args = args.map Value.toExpr ++
          keywords.map (fun (key, v) => .binary (.literal key) "=" v.toExpr) ∧
        rule.attrKeys = keywords.map Prod.fst ∧
        (∀ key, rule.attr? key = (keywords.lookup key).map Value.toExpr) ∧
        (∀ key, rule.attr? key = none ↔ key ∉ keywords.map Prod.fst) ∧
        ∀ name, rule.name? = some name ↔ keywords.lookup "name" = some (.string name)) ∧
    ∀ (rule : Rule) (key : String),
      ((rule.attr? key).isSome = true ↔ key ∈ rule.attrKeys) ∧
        (key ∈ rule.attrKeys ↔ ∃ value, .binary (.literal key) "=" value ∈ rule.args) ∧
        ∀ value, rule.attr? key = some value ↔ ∃ before after,
          rule.args = before ++ .binary (.literal key) "=" value :: after ∧
            ∀ other, .binary (.literal key) "=" other ∉ before := by
  refine ⟨fun kind args keywords => ?_, fun rule key =>
    ⟨attr?_isSome_iff, mem_attrKeys_iff, fun value => attr?_eq_some_iff⟩⟩
  intro rule
  refine ⟨rfl, rfl, attrKeys_ofValues kind args keywords,
    fun key => attr?_ofValues kind key args keywords, fun key => ?_,
    fun name => name?_ofValues_eq_some_iff⟩
  rw [← attrKeys_ofValues kind args keywords, ← attr?_isSome_iff, Option.not_isSome_iff_eq_none]

/-- A positional sum that looks like a keyword argument, and a name that is given twice. -/
example :
    let conditional := Value.platformStrings
      { generic := ["a"], platform := StringMap.ofList [("x", ["b"])] }
    let rule := ofValues "r" [conditional] [("name", .string "n"), ("a", .int 1), ("name", .int 2)]
    rule.attrKeys = ["name", "a", "name"] ∧ rule.name? = some "n" ∧ rule.attr? "x" = none := by
  decide

end Rule

end GoBuildRules
