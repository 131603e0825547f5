import GoBuildRules.Proofs.PlatformStrings.Members
import GoBuildRules.Rule.Value

/-!
# The strings that an attribute stands for

The value of an attribute is a list of strings once it is known which condition holds. `Expr.evalAt`
evaluates an expression where exactly the condition with a given label holds: a list of strings is
itself, `select` takes the branch of the label or else its last one, and `+` concatenates.

* `evalAt_select`: a conditional expression gives the value at the label, and nothing without one.
* `evalAt_platformExpr`: strings for platforms, whose platforms are named by labels, evaluate to
  the strings that hold on the platform (`PlatformStrings.effective`).
-/

namespace GoBuildRules

namespace Expr

mutual

/-- The strings that the expression stands for where the condition with the label holds; none when
it is no list of strings, `select` or sum. -/
def evalAt (label : String) : Expr → Option (List String)
  | list items _ => items.mapM string?
  | call func [dict entries _] =>
    if func = literal "select" then evalBranches label entries else none
  | binary lhs op rhs =>
    if op = "+" then
      match evalAt label lhs, evalAt label rhs with
      | some xs, some ys => some (xs ++ ys)
      | _, _ => none
    else none
  | _ => none

/-- The strings of the first branch whose key is the label, or else of the last branch. -/
def evalBranches (label : String) : List (Expr × Expr) → Option (List String)
  | [] => none
  | [(_, value)] => evalAt label value
  | (key, value) :: rest =>
    if key = string label then evalAt label value else evalBranches label rest

end

/-- The branch that `select` takes where the condition with the label holds. -/
def branch? (label : String) (entries : List (Expr × Expr)) : Option Expr :=
  ((entries.find? fun entry => entry.1 = string label).or entries.getLast?).map Prod.snd

/-- `select` evaluates to the branch that it takes. -/
theorem evalBranches_eq_bind_branch? (label : String) (entries : List (Expr × Expr)) :
    evalBranches label entries = (branch? label entries).bind (evalAt label) := by
  induction entries with
  | nil => rfl
  | cons entry rest ih =>
    obtain ⟨key, value⟩ := entry
    cases rest with
    | nil =>
      by_cases h : key = string label <;> simp [evalBranches, branch?, h]
    | cons next rest =>
      rw [evalBranches, ih]
      by_cases h : key = string label
      · simp [branch?, h]
      · simp [branch?, h, List.getLast?_cons]
      · exact List.cons_ne_nil next rest

theorem evalAt_strings (label : String) (values : List String) :
    (strings values).evalAt label = some values := by
  rw [strings, evalAt, List.mapM_map]
  induction values with
  | nil => rfl
  | cons value rest ih => rw [List.mapM_cons, ih]; rfl

/-- How many lines a list is written in does not change what it stands for. -/
theorem evalAt_toMultiline (label : String) (e : Expr) :
    e.toMultiline.evalAt label = e.evalAt label := by
  cases e <;> rfl

end Expr

namespace Value

/-- A list of string values is written as a list of strings. -/
theorem toExpr_strings (values : List String) : (strings values).toExpr = Expr.strings values := by
  rw [strings, toExpr, Expr.strings]
  congr 1
  induction values with
  | nil => rfl
  | cons value rest ih => rw [List.map_cons, listToExprs, toExpr, ih, List.map_cons]

/-- Of the branches of a conditional expression and a last one after them, the branch of the label
is taken, and the last one when there is none. -/
theorem branch?_map_append (label : String) (branches : List (String × Expr)) (last : Expr × Expr) :
    Expr.branch? label
        (branches.map (fun branch => (Expr.string branch.1, branch.2.toMultiline)) ++ [last]) =
      some (((branches.lookup label).map Expr.toMultiline).getD last.2) := by
  rw [Expr.branch?, List.getLast?_concat]
  induction branches with
  | nil => by_cases h : last.1 = Expr.string label <;> simp [h]
  | cons branch rest ih =>
    obtain ⟨condition, value⟩ := branch
    rw [List.map_cons, List.cons_append, List.lookup_cons]
    by_cases h : condition = label
    · simp [h]
    · have hne : (label == condition) = false := by simpa using Ne.symm h
      simpa [h, hne] using ih

/-- A conditional expression gives the value at the label, and an empty list without one. -/
theorem evalAt_select (label : String) (branches : StringMap Expr) :
    (select branches).evalAt label =
      match branches.get? label with
      | some value => value.evalAt label
      | none => some [] := by
  rw [select, Expr.evalAt, if_pos rfl, Expr.evalBranches_eq_bind_branch?, branch?_map_append,
    Option.bind_some, ← StringMap.get?]
  cases branches.get? label with
  | none => exact Expr.evalAt_strings label []
  | some value => exact Expr.evalAt_toMultiline label value

/-- Strings for platforms evaluate to the strings that hold on the platform of the label. -/
theorem evalAt_platformExpr (label : String) (ps : PlatformStrings) :
    (platformExpr ps).evalAt label = some (ps.effective label) := by
  have conditional : (select (ps.platform.mapValues Expr.strings)).evalAt label =
      some (ps.listed label) := by
    rw [evalAt_select, StringMap.get?_mapValues, PlatformStrings.listed]
    cases ps.platform.get? label with
    | none => rfl
    | some values => exact Expr.evalAt_strings label values
  rw [platformExpr, PlatformStrings.effective]
  split
  · rename_i hplatform
    rw [Expr.evalAt_strings, PlatformStrings.listed, StringMap.isEmpty_iff.mp hplatform label]
    simp
  · split
    · rename_i hgeneric
      rw [conditional, List.isEmpty_iff.mp hgeneric, List.nil_append]
    · rw [Expr.evalAt, if_pos rfl, Expr.evalAt_toMultiline, Expr.evalAt_strings, conditional]

end Value

namespace Rule

/-- The strings of an attribute of the rule where the condition with the label holds; an attribute
that is not there has none. -/
def evalAt (rule : Rule) (label key : String) : Option (List String) :=
  match rule.attr? key with
  | none => some []
  | some e => e.evalAt label

end Rule

end GoBuildRules
