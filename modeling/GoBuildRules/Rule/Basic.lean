import GoBuildRules.Json
import GoBuildRules.Rule.Expr

/-!
# Rules

A rule is a call of its kind, whose keyword arguments are its attributes. The JSON form of a rule
(`Rule.toJson`) tags every expression with its kind.
-/

namespace GoBuildRules

/-- A rule, by its kind and its arguments. -/
structure Rule where
  kind : String
  args : List Expr
  deriving DecidableEq, Repr, Inhabited

namespace Expr

mutual

/-- The JSON form of an expression. -/
def toJson : Expr → Json
  | literal token => .object [("type", .string "literal"), ("token", .string token)]
  | string value => .object [("type", .string "string"), ("value", .string value)]
  | list items multiline =>
    .object [("type", .string "list"), ("items", .array (listToJson items)),
      ("force_multiline", .bool multiline)]
  | dict entries multiline =>
    .object [("type", .string "dict"), ("entries", .array (entriesToJson entries)),
      ("force_multiline", .bool multiline)]
  | call func args =>
    .object [("type", .string "call"), ("func", toJson func), ("args", .array (listToJson args))]
  | binary lhs op rhs =>
    .object [("type", .string "binary"), ("lhs", toJson lhs), ("op", .string op),
      ("rhs", toJson rhs)]

/-- The JSON forms of the expressions of a list. -/
def listToJson : List Expr → List Json
  | [] => []
  | e :: rest => toJson e :: listToJson rest

/-- The JSON forms of the entries of a dictionary. -/
def entriesToJson : List (Expr × Expr) → List Json
  | [] => []
  | (key, value) :: rest =>
    .object [("key", toJson key), ("value", toJson value)] :: entriesToJson rest

end

end Expr

namespace Rule

/-- The rule as a call. -/
def call (rule : Rule) : Expr :=
  .call (.literal rule.kind) rule.args

/-- The keyword arguments with their values, in order. -/
def attrs (rule : Rule) : List (String × Expr) :=
  rule.args.filterMap Expr.keyword?

/-- The names of the keyword arguments, in order. -/
def attrKeys (rule : Rule) : List String :=
  rule.attrs.map Prod.fst

/-- The value of the first keyword argument with the name. -/
def attr? (rule : Rule) (key : String) : Option Expr :=
  rule.attrs.lookup key

/-- The name of the rule, when it is given by a string. -/
def name? (rule : Rule) : Option String :=
  (rule.attr? "name").bind Expr.string?

/-- The JSON text of the rule. -/
def toJson (rule : Rule) : String :=
  rule.call.toJson.pretty

/-- An attribute has a value exactly when its name is among the keys. -/
theorem attr?_isSome_iff {rule : Rule} {key : String} :
    (rule.attr? key).isSome = true ↔ key ∈ rule.attrKeys := by
  simp only [attr?, attrKeys]
  induction rule.attrs with
  | nil => simp
  | cons entry rest ih =>
    obtain ⟨k, v⟩ := entry
    simp only [List.lookup_cons, List.map_cons, List.mem_cons]
    by_cases h : key = k
    · simp [h]
    · have hne : (key == k) = false := by simpa using h
      simp [hne, h, ih]

end Rule

end GoBuildRules
