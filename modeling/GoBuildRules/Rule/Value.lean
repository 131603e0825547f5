import GoBuildRules.Decimal.Fixed
import GoBuildRules.PlatformStrings
import GoBuildRules.Rule.Basic

/-!
# Values of rules

The values that the arguments of a rule are made from, and their expressions (`Value.toExpr`).
Strings for platforms and maps become conditional expressions: `select` chooses the branch whose
key is the label of a condition that holds, and an empty list when none does.
-/

namespace GoBuildRules

/-- A value that can be written as an expression. -/
inductive Value where
  | int (n : Int)
  | float (x : Float)
  | string (s : String)
  | list (items : List Value)
  /-- The files that match the patterns and none of the excludes. -/
  | glob (patterns excludes : List String)
  | platformStrings (ps : PlatformStrings)
  /-- Values by conditions; of several with one condition the last counts. -/
  | map (entries : List (String × Value))

namespace Value

/-- How many places a floating-point number is written with. -/
def floatPlaces : Nat := 6

/-- The condition of the branch that is taken when no other is. -/
def defaultCondition : String := "//conditions:default"

/-- The conditional expression with the branches in the order of their conditions, and then the
default branch, which is an empty list. -/
def select (branches : StringMap Expr) : Expr :=
  let entries := branches.toList.map fun (condition, value) =>
    (Expr.string condition, value.toMultiline)
  .call (.literal "select")
    [.dict (entries ++ [(.string defaultCondition, .list [] false)]) true]

/-- The expression of patterns, with the excludes only where there are some. -/
def globExpr (patterns excludes : List String) : Expr :=
  let exclude := if excludes.isEmpty then [] else [Expr.keyword "exclude" (.strings excludes)]
  .call (.literal "glob") (.strings patterns :: exclude)

/-- The expression of strings for platforms: the strings for all, a conditional expression of the
others, or the sum of both. -/
def platformExpr (ps : PlatformStrings) : Expr :=
  if ps.platform.isEmpty then .strings ps.generic
  else
    let conditional := select (ps.platform.mapValues Expr.strings)
    if ps.generic.isEmpty then conditional
    else .binary (Expr.strings ps.generic).toMultiline "+" conditional

mutual

/-- The expression of a value. -/
def toExpr : Value → Expr
  | int n => .literal (toString n)
  | float x => .literal (Decimal.fixed floatPlaces x)
  | string s => .string s
  | list items => .list (listToExprs items) false
  | glob patterns excludes => globExpr patterns excludes
  | platformStrings ps => platformExpr ps
  | map entries => select (StringMap.ofList (entriesToExprs entries))

/-- The expressions of the values of a list. -/
def listToExprs : List Value → List Expr
  | [] => []
  | v :: rest => toExpr v :: listToExprs rest

/-- The entries of a map with the expressions of their values. -/
def entriesToExprs : List (String × Value) → List (String × Expr)
  | [] => []
  | (key, v) :: rest => (key, toExpr v) :: entriesToExprs rest

end

/-- A list of string values. -/
def strings (values : List String) : Value :=
  list (values.map string)

end Value

/-- The rule with the positional arguments first and the keyword arguments after them, both in the
order given. -/
def Rule.ofValues (kind : String) (args : List Value) (keywords : List (String × Value)) :
    Rule where
  kind := kind
  args := args.map Value.toExpr ++ keywords.map fun (key, value) => .keyword key value.toExpr

end GoBuildRules
