import GoBuildRules.Proofs.Rule.Evaluation

/-!
# The shape of conditional expressions

Maps and strings for platforms are written as calls of `select`, and they may stand anywhere in a
value: in lists, in the branches of maps, and there again. What is prescribed for such a call, for a
dictionary and for a sum (`Value.Prescribes`) is a property of one expression and its direct parts,
so it is proved for all expressions that occur in a written value by induction on the value
(`Value.everywhere_prescribes`).

* `Value.selectDict`: the argument of `select`, as the branches prescribe it.
* `Value.toExpr_conditionals`: every `select`, dictionary and sum in the expression of a value has
  the prescribed shape, and a value that has branches is written with its own.
-/

namespace GoBuildRules

/-! ## Occurrences -/

namespace Expr

variable {d e : Expr} {P : Expr → Prop}

/-- The direct parts of an expression. -/
def parts : Expr → List Expr
  | literal _ | string _ => []
  | list items _ => items
  | dict entries _ => entries.flatMap fun (key, value) => [key, value]
  | call func args => func :: args
  | binary lhs _ rhs => [lhs, rhs]

/-- The first expression is the second or occurs in a part of it. -/
inductive OccursIn (d : Expr) : Expr → Prop
  | self : OccursIn d d
  | part {p e : Expr} (hpart : p ∈ e.parts) (h : OccursIn d p) : OccursIn d e

/-- What occurs in an expression is the expression, or a part of something that occurs in it. -/
theorem OccursIn.eq_or_mem_parts (h : d.OccursIn e) :
    d = e ∨ ∃ p : Expr, p.OccursIn e ∧ d ∈ p.parts := by
  induction h with
  | self => exact .inl rfl
  | part hpart _ ih =>
    rcases ih with rfl | ⟨q, hq, hmem⟩
    · exact .inr ⟨_, .self, hpart⟩
    · exact .inr ⟨q, .part hpart hq, hmem⟩

/-- The parts of what occurs in an expression occur in it. -/
theorem OccursIn.of_mem_parts {p : Expr} (h : p.OccursIn e) (hd : d ∈ p.parts) :
    d.OccursIn e := by
  induction h with
  | self => exact .part hd .self
  | part hpart _ ih => exact .part hpart ih

/-- All expressions that occur in an expression satisfy `P`. -/
def Everywhere (P : Expr → Prop) (e : Expr) : Prop :=
  ∀ d, d.OccursIn e → P d

theorem everywhere_iff : e.Everywhere P ↔ P e ∧ ∀ p ∈ e.parts, p.Everywhere P := by
  constructor
  · exact fun h => ⟨h e .self, fun p hp d hd => h d (.part hp hd)⟩
  · rintro ⟨hself, hparts⟩ d hd
    cases hd with
    | self => exact hself
    | part hpart hd => exact hparts _ hpart d hd

theorem parts_toMultiline (e : Expr) : e.toMultiline.parts = e.parts := by
  cases e <;> rfl

/-- Whether the expression is a dictionary. -/
def IsDict : Expr → Prop
  | dict _ _ => True
  | _ => False

theorem isDict_toMultiline_iff : e.toMultiline.IsDict ↔ e.IsDict := by
  cases e <;> rfl

end Expr

namespace Value

/-- The values that a conditional expression made from the value chooses from, by conditions; none
when no conditional expression is made. -/
def branches? : Value → Option (StringMap Value)
  | map entries => some (StringMap.ofList entries)
  | platformStrings ps =>
    if ps.platform.isEmpty then none else some (ps.platform.mapValues strings)
  | _ => none

/-- The values in a list or in the branches of a map. -/
def parts : Value → List Value
  | list items => items
  | map entries => (StringMap.ofList entries).values
  | _ => []

/-- The first value is the second or occurs in a part of it. -/
inductive OccursIn (u : Value) : Value → Prop
  | self : OccursIn u u
  | part {p v : Value} (hpart : p ∈ v.parts) (h : OccursIn u p) : OccursIn u v

/-- The dictionary that is prescribed for the branches: their conditions with their values, lists
and dictionaries with one element a line, and after them the default with an empty list. -/
def selectDict (branches : StringMap Value) : Expr :=
  let entries := branches.toList.map fun (condition, value) =>
    (Expr.string condition, value.toExpr.toMultiline)
  .dict (entries ++ [(.string "//conditions:default", .list [] false)]) true

/-- What is prescribed for an expression that occurs in the expression of the value. -/
structure Prescribes (v : Value) (e : Expr) : Prop where
  /-- The one argument of `select` is the dictionary for the branches of a value in the value. -/
  select : ∀ args, e = .call (.literal "select") args →
    ∃ (source : Value) (branches : StringMap Value), source.OccursIn v ∧
      source.branches? = some branches ∧ branches.keys.Pairwise (· < ·) ∧
      args = [selectDict branches]
  /-- A dictionary is a part of a `select` only, as its one argument. -/
  dict : ∀ entries multiline, .dict entries multiline ∈ e.parts →
    e = .call (.literal "select") [.dict entries multiline]
  /-- A sum is one of a list that is not empty, with one item a line, and a `select`. -/
  sum : ∀ lhs rhs, e = .binary lhs "+" rhs → ∃ items args, items ≠ [] ∧
    lhs = .list items true ∧ rhs = .call (.literal "select") args

variable {v u : Value} {e : Expr} {branches : StringMap Value}

/-! ## Induction on values -/

theorem sizeOf_lt_of_mem_parts (h : u ∈ v.parts) : sizeOf u < sizeOf v := by
  cases v with
  | list items =>
    have hmem : u ∈ items := h
    have hlt := List.sizeOf_lt_of_mem hmem
    simp only [list.sizeOf_spec]
    omega
  | map entries =>
    obtain ⟨key, hget⟩ := StringMap.mem_values_iff.mp h
    have hlt := List.sizeOf_lt_of_mem (StringMap.mem_of_get?_ofList hget)
    simp only [map.sizeOf_spec]
    simp only [Prod.mk.sizeOf_spec] at hlt
    omega
  | _ => cases h

/-- What holds of a value when it holds of its parts holds of every value. -/
theorem parts_induction {motive : Value → Prop}
    (step : ∀ v, (∀ u ∈ v.parts, motive u) → motive v) (v : Value) : motive v :=
  step v fun u _ => parts_induction step u
termination_by sizeOf v
decreasing_by exact sizeOf_lt_of_mem_parts ‹_›

/-! ## Written values -/

theorem listToExprs_eq_map (items : List Value) : listToExprs items = items.map toExpr := by
  induction items with
  | nil => rfl
  | cons v rest ih => rw [listToExprs, ih, List.map_cons]

theorem entriesToExprs_eq_map (entries : List (String × Value)) :
    entriesToExprs entries = entries.map fun (key, v) => (key, v.toExpr) := by
  induction entries with
  | nil => rfl
  | cons entry rest ih =>
    obtain ⟨key, v⟩ := entry
    rw [entriesToExprs, ih, List.map_cons]

/-- The `select` of branches is written with their dictionary. -/
theorem select_mapValues_toExpr (branches : StringMap Value) :
    select (branches.mapValues toExpr) = .call (.literal "select") [selectDict branches] := by
  simp [select, selectDict, StringMap.mapValues, defaultCondition, Function.comp_def]

theorem toExpr_map (entries : List (String × Value)) : (map entries).toExpr =
    .call (.literal "select") [selectDict (StringMap.ofList entries)] := by
  rw [toExpr, entriesToExprs_eq_map, StringMap.ofList_map, select_mapValues_toExpr]

/-- Strings for platforms are written as a list, as a `select`, or as the sum of both. -/
theorem toExpr_platformStrings (ps : PlatformStrings) :
    (platformStrings ps).toExpr = Expr.strings ps.generic ∧
        (platformStrings ps).branches? = none ∨
      ∃ branches, (platformStrings ps).branches? = some branches ∧
        branches = ps.platform.mapValues strings ∧
        let conditional := Expr.call (.literal "select") [selectDict branches]
        (platformStrings ps).toExpr = conditional ∨
          ps.generic ≠ [] ∧ (platformStrings ps).toExpr =
            .binary (.list (ps.generic.map .string) true) "+" conditional := by
  have hselect : select (ps.platform.mapValues Expr.strings) =
      .call (.literal "select") [selectDict (ps.platform.mapValues strings)] := by
    rw [← select_mapValues_toExpr]
    simp [StringMap.mapValues, Function.comp_def, toExpr_strings]
  rw [toExpr, platformExpr, branches?, hselect]
  split
  · exact .inl ⟨rfl, rfl⟩
  · refine .inr ⟨_, rfl, rfl, ?_⟩
    split
    · exact .inl rfl
    · rename_i hgeneric
      exact .inr ⟨fun hnil => hgeneric (List.isEmpty_iff.mpr hnil), rfl⟩

/-! ## Prescribed expressions -/

/-- What is no call of `select` and no sum, and has no dictionary as a part, needs no shape. -/
theorem prescribes_of_plain (hselect : ∀ args, e ≠ .call (.literal "select") args)
    (hsum : ∀ lhs rhs, e ≠ .binary lhs "+" rhs) (hparts : ∀ p ∈ e.parts, ¬ p.IsDict) :
    v.Prescribes e :=
  ⟨fun args heq => absurd heq (hselect args), fun _ _ hmem => absurd trivial (hparts _ hmem),
    fun lhs rhs heq => absurd heq (hsum lhs rhs)⟩

theorem everywhere_literal (token : String) : (Expr.literal token).Everywhere v.Prescribes :=
  Expr.everywhere_iff.mpr ⟨prescribes_of_plain nofun nofun nofun, nofun⟩

theorem everywhere_string (s : String) : (Expr.string s).Everywhere v.Prescribes :=
  Expr.everywhere_iff.mpr ⟨prescribes_of_plain nofun nofun nofun, nofun⟩

theorem everywhere_list {items : List Expr} (multiline : Bool)
    (h : ∀ item ∈ items, ¬ item.IsDict ∧ item.Everywhere v.Prescribes) :
    (Expr.list items multiline).Everywhere v.Prescribes :=
  Expr.everywhere_iff.mpr ⟨prescribes_of_plain nofun nofun fun p hp => (h p hp).1,
    fun p hp => (h p hp).2⟩

theorem everywhere_listOfStrings (values : List String) (multiline : Bool) :
    (Expr.list (values.map .string) multiline).Everywhere v.Prescribes := by
  refine everywhere_list multiline fun item hitem => ?_
  obtain ⟨s, -, rfl⟩ := List.mem_map.mp hitem
  exact ⟨id, everywhere_string s⟩

theorem Prescribes.not_isDict_of_mem_parts (h : v.Prescribes e)
    (hselect : ∀ args, e ≠ .call (.literal "select") args) : ∀ p ∈ e.parts, ¬ p.IsDict := by
  intro p hp hdict
  cases p with
  | dict entries multiline => exact hselect _ (h.dict entries multiline hp)
  | _ => exact hdict

/-- The marker for many lines changes nothing that is prescribed. -/
theorem everywhere_toMultiline (h : e.Everywhere v.Prescribes) :
    e.toMultiline.Everywhere v.Prescribes := by
  obtain ⟨hself, hparts⟩ := Expr.everywhere_iff.mp h
  rw [Expr.everywhere_iff, Expr.parts_toMultiline]
  refine ⟨?_, hparts⟩
  cases e with
  | list items multiline =>
    exact prescribes_of_plain nofun nofun (hself.not_isDict_of_mem_parts nofun)
  | dict entries multiline =>
    exact prescribes_of_plain nofun nofun (hself.not_isDict_of_mem_parts nofun)
  | _ => exact hself

theorem mem_parts_selectDict_cases (h : e ∈ (selectDict branches).parts) :
    (∃ s, e = .string s) ∨ (∃ u ∈ branches.values, e = u.toExpr.toMultiline) ∨
      e = .list [] false := by
  simp only [selectDict, Expr.parts, List.flatMap_append, List.mem_append, List.mem_flatMap,
    List.mem_map] at h
  rcases h with ⟨entry, ⟨⟨condition, u⟩, hmem, rfl⟩, he⟩ | ⟨entry, hentry, he⟩
  · rcases List.mem_cons.mp he with rfl | he
    · exact .inl ⟨condition, rfl⟩
    · exact .inr (.inl ⟨u, List.mem_map_of_mem hmem, List.mem_singleton.mp he⟩)
  · rw [List.mem_singleton.mp hentry] at he
    rcases List.mem_cons.mp he with rfl | he
    · exact .inl ⟨_, rfl⟩
    · exact .inr (.inr (List.mem_singleton.mp he))

/-- A `select` has the prescribed shape everywhere when its branches have. -/
theorem everywhere_select {source : Value} (hsource : source.OccursIn v)
    (hbranches : source.branches? = some branches)
    (h : ∀ u ∈ branches.values, ¬ u.toExpr.IsDict ∧ u.toExpr.Everywhere v.Prescribes) :
    (Expr.call (.literal "select") [selectDict branches]).Everywhere v.Prescribes := by
  -- The dictionary first, then the call around it, which is the only `select` here that has to be
  -- that of branches of `v`.
  have hdict : (selectDict branches).Everywhere v.Prescribes := by
    refine Expr.everywhere_iff.mpr ⟨prescribes_of_plain nofun nofun fun p hp => ?_, fun p hp => ?_⟩
    · rcases mem_parts_selectDict_cases hp with ⟨s, rfl⟩ | ⟨u, hu, rfl⟩ | rfl
      · exact id
      · rw [Expr.isDict_toMultiline_iff]
        exact (h u hu).1
      · exact id
    · rcases mem_parts_selectDict_cases hp with ⟨s, rfl⟩ | ⟨u, hu, rfl⟩ | rfl
      · exact everywhere_string s
      · exact everywhere_toMultiline (h u hu).2
      · exact everywhere_listOfStrings [] false
  refine Expr.everywhere_iff.mpr ⟨⟨?_, ?_, nofun⟩, fun p hp => ?_⟩
  · rintro args heq
    obtain rfl := (Expr.call.inj heq).2
    exact ⟨source, branches, hsource, hbranches, branches.ascending, rfl⟩
  · intro entries multiline hmem
    rcases List.mem_cons.mp hmem with hliteral | hmem
    · cases hliteral
    · rw [List.mem_singleton.mp hmem]
  · rcases List.mem_cons.mp hp with rfl | hp
    · exact everywhere_literal _
    · exact List.mem_singleton.mp hp ▸ hdict

theorem everywhere_keyword (key : String) (hdict : ¬ e.IsDict)
    (h : e.Everywhere v.Prescribes) : (Expr.keyword key e).Everywhere v.Prescribes := by
  have hsum : ∀ lhs rhs, Expr.keyword key e ≠ .binary lhs "+" rhs := fun lhs rhs heq =>
    absurd (Expr.binary.inj heq).2.1 (by decide)
  have hparts : ∀ p ∈ (Expr.keyword key e).parts, p = .literal key ∨ p = e := fun p hp =>
    (List.mem_cons.mp hp).imp_right List.mem_singleton.mp
  refine Expr.everywhere_iff.mpr ⟨prescribes_of_plain nofun hsum fun p hp => ?_, fun p hp => ?_⟩
  · rcases hparts p hp with rfl | rfl
    · exact id
    · exact hdict
  · rcases hparts p hp with rfl | rfl
    · exact everywhere_literal key
    · exact h

/-- A call of another function than `select` needs no shape. -/
theorem everywhere_call {func : String} {args : List Expr} (hfunc : func ≠ "select")
    (h : ∀ arg ∈ args, ¬ arg.IsDict ∧ arg.Everywhere v.Prescribes) :
    (Expr.call (.literal func) args).Everywhere v.Prescribes := by
  have hselect : ∀ others, Expr.call (.literal func) args ≠ .call (.literal "select") others :=
    fun others heq => hfunc (Expr.literal.inj (Expr.call.inj heq).1)
  refine Expr.everywhere_iff.mpr ⟨prescribes_of_plain hselect nofun fun p hp => ?_, fun p hp => ?_⟩
  · rcases List.mem_cons.mp hp with rfl | hp
    · exact id
    · exact (h p hp).1
  · rcases List.mem_cons.mp hp with rfl | hp
    · exact everywhere_literal func
    · exact (h p hp).2

theorem everywhere_globExpr (patterns excludes : List String) :
    (globExpr patterns excludes).Everywhere v.Prescribes := by
  have hstrings : ∀ values : List String, (Expr.strings values).Everywhere v.Prescribes :=
    fun values => everywhere_listOfStrings values false
  refine everywhere_call (by decide) fun arg harg => ?_
  rcases List.mem_cons.mp harg with rfl | harg
  · exact ⟨id, hstrings patterns⟩
  · split at harg
    · cases harg
    · rw [List.mem_singleton.mp harg]
      exact ⟨id, everywhere_keyword "exclude" id (hstrings excludes)⟩

/-- A list that is not empty, with one item a line, and a `select` make a sum of the prescribed
shape. -/
theorem everywhere_sum {items args : List Expr} (hne : items ≠ [])
    (hlist : (Expr.list items true).Everywhere v.Prescribes)
    (hselect : (Expr.call (.literal "select") args).Everywhere v.Prescribes) :
    (Expr.binary (.list items true) "+" (.call (.literal "select") args)).Everywhere
      v.Prescribes := by
  refine Expr.everywhere_iff.mpr ⟨⟨nofun, fun entries multiline hmem => ?_, ?_⟩, fun p hp => ?_⟩
  · rcases List.mem_cons.mp hmem with hlist | hmem
    · cases hlist
    · cases List.mem_singleton.mp hmem
  · intro lhs rhs heq
    obtain ⟨rfl, -, rfl⟩ := Expr.binary.inj heq
    exact ⟨items, args, hne, rfl, rfl⟩
  · rcases List.mem_cons.mp hp with rfl | hp
    · exact hlist
    · exact List.mem_singleton.mp hp ▸ hselect

/-! ## All values -/

/-- No value is written as a dictionary. -/
theorem not_isDict_toExpr (v : Value) : ¬ v.toExpr.IsDict := by
  cases v with
  | platformStrings ps =>
    rcases toExpr_platformStrings ps with ⟨heq, -⟩ | ⟨branches, -, -, heq | ⟨-, heq⟩⟩ <;>
      rw [heq] <;> exact id
  | _ => exact id

/-- No value is written as a keyword argument. -/
theorem toExpr_ne_equals (v : Value) (lhs rhs : Expr) : v.toExpr ≠ .binary lhs "=" rhs := by
  cases v with
  | platformStrings ps =>
    intro h
    rcases toExpr_platformStrings ps with ⟨heq, -⟩ | ⟨branches, -, -, heq | ⟨-, heq⟩⟩
    · cases heq.symm.trans h
    · cases heq.symm.trans h
    · exact absurd (Expr.binary.inj (heq.symm.trans h)).2.1 (by decide)
  | _ => nofun

theorem Prescribes.of_part (h : u.Prescribes e) (hu : u ∈ v.parts) : v.Prescribes e := by
  refine ⟨fun args heq => ?_, h.dict, h.sum⟩
  obtain ⟨source, branches, hsource, hrest⟩ := h.select args heq
  exact ⟨source, branches, .part hu hsource, hrest⟩

/-- What is prescribed holds of all expressions that occur in the expression of a value. -/
theorem everywhere_prescribes (v : Value) : v.toExpr.Everywhere v.Prescribes := by
  induction v using parts_induction with
  | step v ih =>
    -- What is prescribed by a part is prescribed by the whole, since its branches are found in
    -- both.
    have hparts : ∀ u ∈ v.parts, ¬ u.toExpr.IsDict ∧ u.toExpr.Everywhere v.Prescribes :=
      fun u hu => ⟨not_isDict_toExpr u, fun d hd => (ih u hu d hd).of_part hu⟩
    cases v with
    | int n => exact everywhere_literal _
    | float x => exact everywhere_literal _
    | string s => exact everywhere_string s
    | list items =>
      rw [toExpr, listToExprs_eq_map]
      refine everywhere_list false fun item hitem => ?_
      obtain ⟨u, hu, rfl⟩ := List.mem_map.mp hitem
      exact hparts u hu
    | glob patterns excludes => exact everywhere_globExpr patterns excludes
    | map entries =>
      rw [toExpr_map]
      exact everywhere_select .self rfl hparts
    | platformStrings ps =>
      have hstrings : ∀ u ∈ (ps.platform.mapValues strings).values, ¬ u.toExpr.IsDict ∧
          u.toExpr.Everywhere (platformStrings ps).Prescribes := by
        intro u hu
        obtain ⟨name, hget⟩ := StringMap.mem_values_iff.mp hu
        rw [StringMap.get?_mapValues, Option.map_eq_some_iff] at hget
        obtain ⟨values, -, rfl⟩ := hget
        rw [toExpr_strings]
        exact ⟨id, everywhere_listOfStrings values false⟩
      rcases toExpr_platformStrings ps with ⟨heq, -⟩ | ⟨branches, hbranches, rfl, heq | ⟨hne, heq⟩⟩
      · rw [heq]
        exact everywhere_listOfStrings ps.generic false
      · rw [heq]
        exact everywhere_select .self hbranches hstrings
      · rw [heq]
        exact everywhere_sum (fun hnil => hne (List.map_eq_nil_iff.mp hnil))
          (everywhere_listOfStrings ps.generic true) (everywhere_select .self hbranches hstrings)

/-- A value with branches is written as their `select`, or as a sum with it. -/
theorem toExpr_of_branches? (h : v.branches? = some branches) :
    let conditional := Expr.call (.literal "select") [selectDict branches]
    v.toExpr = conditional ∨
      ∃ items, items ≠ [] ∧ v.toExpr = .binary (.list items true) "+" conditional := by
  intro conditional
  cases v with
  | map entries =>
    obtain rfl := Option.some.inj h
    exact .inl (toExpr_map entries)
  | platformStrings ps =>
    rcases toExpr_platformStrings ps with ⟨-, hnone⟩ | ⟨own, hown, -, heq⟩
    · cases h.symm.trans hnone
    · obtain rfl := Option.some.inj (h.symm.trans hown)
      refine heq.imp_right fun ⟨hne, heq⟩ => ⟨_, fun hnil => hne ?_, heq⟩
      exact List.map_eq_nil_iff.mp hnil
  | _ => cases h

/-- **Conditional expressions have one shape at any depth.** Take any expression that occurs in the
written form of a value. If it is a call of `select`, its one argument is the dictionary of a map or
of strings for platforms that stand in the value: a branch for each condition, in ascending order,
and the default branch after them. If a dictionary is a part of it, it is such a call. If it is a
sum, it is one of a list that is not empty and a `select`. No value is written as a dictionary or as
a keyword argument, and each that has branches is written with the `select` of its own. -/
theorem toExpr_conditionals (v : Value) :
    (∀ e : Expr, e.OccursIn v.toExpr → v.Prescribes e) ∧
      (∀ entries multiline, v.toExpr ≠ .dict entries multiline) ∧
      (∀ lhs rhs, v.toExpr ≠ .binary lhs "=" rhs) ∧
      ∀ branches, v.branches? = some branches →
        let conditional := Expr.call (.literal "select") [selectDict branches]
        v.toExpr = conditional ∨
          ∃ items, items ≠ [] ∧ v.toExpr = .binary (.list items true) "+" conditional := by
  refine ⟨everywhere_prescribes v, fun entries multiline heq => ?_, toExpr_ne_equals v,
    fun branches => toExpr_of_branches?⟩
  exact not_isDict_toExpr v (heq ▸ trivial)

/-- Strings for all platforms and for Linux. -/
def someOnLinux : PlatformStrings where
  generic := ["a.go"]
  platform := StringMap.ofList [("linux", ["b.go"])]

theorem toExpr_conditionals_nested :
    let entries := [("y", .platformStrings someOnLinux), ("x", .list [])]
    let v : Value := .list [.map entries]
    let sum := (platformStrings someOnLinux).toExpr
    let conditional := Expr.call (.literal "select") [selectDict (StringMap.ofList entries)]
    (conditional.OccursIn v.toExpr ∧ ∃ branches : StringMap Value,
      branches.keys.Pairwise (· < ·) ∧
        selectDict (StringMap.ofList entries) = selectDict branches) ∧
      sum.OccursIn v.toExpr ∧ ∃ items args, items ≠ [] ∧
        sum = .binary (.list items true) "+" (.call (.literal "select") args) := by
  intro entries v sum conditional
  have hmap : conditional.OccursIn v.toExpr :=
    .part List.mem_cons_self (toExpr_map entries ▸ .self)
  have hdict : (selectDict (StringMap.ofList entries)).OccursIn v.toExpr :=
    hmap.of_mem_parts (List.mem_cons_of_mem _ List.mem_cons_self)
  have hsum : sum.OccursIn v.toExpr := hdict.of_mem_parts (by decide)
  have hshape : ∃ lhs rhs, sum = .binary lhs "+" rhs := ⟨_, _, rfl⟩
  obtain ⟨hprescribes, -, -, -⟩ := toExpr_conditionals v
  obtain ⟨source, branches, -, -, hascending, hargs⟩ :=
    (hprescribes conditional hmap).select _ rfl
  obtain ⟨lhs, rhs, hsum_eq⟩ := hshape
  obtain ⟨items, args, hne, rfl, rfl⟩ := (hprescribes sum hsum).sum lhs rhs hsum_eq
  exact ⟨⟨hmap, branches, hascending, (List.cons.inj hargs).1⟩, hsum, items, args, hne, hsum_eq⟩

end Value

end GoBuildRules
