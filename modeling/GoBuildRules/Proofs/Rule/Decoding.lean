import GoBuildRules.Proofs.Json.Reading
import GoBuildRules.Rule.Basic

/-!
# Rules from their JSON text

The members of an object say which expression it stands for: the first is its kind, and the others
follow in the order of the kind (`Expr.ofJson?`). So a rule is read back from its text
(`Rule.toJson_faithful`), and different rules have different texts.
-/

namespace GoBuildRules

namespace Expr

mutual

/-- The expression whose JSON form is given, when it is one. -/
def ofJson? : Json → Option Expr
  | .object [("type", .string "literal"), ("token", .string token)] => some (literal token)
  | .object [("type", .string "string"), ("value", .string value)] => some (string value)
  | .object [("type", .string "list"), ("items", .array items),
      ("force_multiline", .bool multiline)] =>
    (listOfJson? items).map fun items => list items multiline
  | .object [("type", .string "dict"), ("entries", .array entries),
      ("force_multiline", .bool multiline)] =>
    (entriesOfJson? entries).map fun entries => dict entries multiline
  | .object [("type", .string "call"), ("func", func), ("args", .array args)] =>
    (ofJson? func).bind fun func => (listOfJson? args).map fun args => call func args
  | .object [("type", .string "binary"), ("lhs", lhs), ("op", .string op), ("rhs", rhs)] =>
    (ofJson? lhs).bind fun lhs => (ofJson? rhs).map fun rhs => binary lhs op rhs
  | _ => none

/-- The expressions whose JSON forms are given. -/
def listOfJson? : List Json → Option (List Expr)
  | [] => some []
  | e :: rest => (ofJson? e).bind fun e => (listOfJson? rest).map fun rest => e :: rest

/-- The entries of a dictionary whose JSON forms are given. -/
def entriesOfJson? : List Json → Option (List (Expr × Expr))
  | [] => some []
  | .object [("key", key), ("value", value)] :: rest =>
    (ofJson? key).bind fun key => (ofJson? value).bind fun value =>
      (entriesOfJson? rest).map fun rest => (key, value) :: rest
  | _ :: _ => none

end

mutual

/-- An expression is read back from its JSON form. -/
theorem ofJson?_toJson : ∀ e : Expr, ofJson? e.toJson = some e
  | literal token => by rw [toJson, ofJson?]
  | string value => by rw [toJson, ofJson?]
  | list items multiline => by rw [toJson, ofJson?, listOfJson?_listToJson items, Option.map_some]
  | dict entries multiline => by
    rw [toJson, ofJson?, entriesOfJson?_entriesToJson entries, Option.map_some]
  | call func args => by
    rw [toJson, ofJson?, ofJson?_toJson func, Option.bind_some, listOfJson?_listToJson args,
      Option.map_some]
  | binary lhs op rhs => by
    rw [toJson, ofJson?, ofJson?_toJson lhs, Option.bind_some, ofJson?_toJson rhs, Option.map_some]

theorem listOfJson?_listToJson : ∀ items : List Expr, listOfJson? (listToJson items) = some items
  | [] => rfl
  | e :: rest => by
    rw [listToJson, listOfJson?, ofJson?_toJson e, Option.bind_some, listOfJson?_listToJson rest,
      Option.map_some]

theorem entriesOfJson?_entriesToJson : ∀ entries : List (Expr × Expr),
    entriesOfJson? (entriesToJson entries) = some entries
  | [] => rfl
  | (key, value) :: rest => by
    rw [entriesToJson, entriesOfJson?, ofJson?_toJson key, Option.bind_some, ofJson?_toJson value,
      Option.bind_some, entriesOfJson?_entriesToJson rest, Option.map_some]

end

end Expr

namespace Rule

/-- The rule whose call is given, when the function is a plain name. -/
def ofCall? : Expr → Option Rule
  | .call (.literal kind) args => some ⟨kind, args⟩
  | _ => none

/-- The rule whose JSON text is given, when it is one. -/
def ofJson? (text : String) : Option Rule :=
  ((Json.read? text).bind Expr.ofJson?).bind ofCall?

/-- A rule is read back from its JSON text. -/
theorem ofJson?_toJson (rule : Rule) : ofJson? rule.toJson = some rule := by
  rw [ofJson?, toJson, Json.read?_pretty, Option.bind_some, Expr.ofJson?_toJson, Option.bind_some]
  rfl

/-- **The JSON text of a rule is faithful.** The rule can be read back from it, whatever expressions
its arguments are; so two rules have one text only if they are equal. -/
theorem toJson_faithful (rule other : Rule) :
    ofJson? rule.toJson = some rule ∧ (rule.toJson = other.toJson ↔ rule = other) := by
  refine ⟨ofJson?_toJson rule, fun h => ?_, fun h => by rw [h]⟩
  have hrule := ofJson?_toJson rule
  rw [h, ofJson?_toJson other] at hrule
  exact (Option.some.inj hrule).symm

end Rule

end GoBuildRules
