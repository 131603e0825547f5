/-!
# Expressions of build files

The expressions that generated rules consist of. Only their shape and values are fixed here;
writing them out as a build file is the work of a formatter.
-/

namespace GoBuildRules

/-- An expression of a build file. -/
inductive Expr where
  /-- A bare token, such as an identifier or a number. -/
  | literal (token : String)
  | string (value : String)
  /-- A list, and whether it is to be written with one item a line. -/
  | list (items : List Expr) (multiline : Bool)
  /-- A dictionary, and whether it is to be written with one entry a line. -/
  | dict (entries : List (Expr × Expr)) (multiline : Bool)
  | call (func : Expr) (args : List Expr)
  | binary (lhs : Expr) (op : String) (rhs : Expr)
  deriving Repr, Inhabited

namespace Expr

mutual

/-- Decides whether two expressions are equal. -/
def decEq : (a b : Expr) → Decidable (a = b)
  | literal s, literal t => decidable_of_iff (s = t) (by simp)
  | string s, string t => decidable_of_iff (s = t) (by simp)
  | list xs m, list ys n =>
    have := decEqList xs ys
    decidable_of_iff (xs = ys ∧ m = n) (by simp)
  | dict xs m, dict ys n =>
    have := decEqEntries xs ys
    decidable_of_iff (xs = ys ∧ m = n) (by simp)
  | call f xs, call g ys =>
    have := decEq f g
    have := decEqList xs ys
    decidable_of_iff (f = g ∧ xs = ys) (by simp)
  | binary a o b, binary c p d =>
    have := decEq a c
    have := decEq b d
    decidable_of_iff (a = c ∧ o = p ∧ b = d) (by simp)
  | literal _, string _ | literal _, list _ _ | literal _, dict _ _ | literal _, call _ _
  | literal _, binary _ _ _ | string _, literal _ | string _, list _ _ | string _, dict _ _
  | string _, call _ _ | string _, binary _ _ _ | list _ _, literal _ | list _ _, string _
  | list _ _, dict _ _ | list _ _, call _ _ | list _ _, binary _ _ _ | dict _ _, literal _
  | dict _ _, string _ | dict _ _, list _ _ | dict _ _, call _ _ | dict _ _, binary _ _ _
  | call _ _, literal _ | call _ _, string _ | call _ _, list _ _ | call _ _, dict _ _
  | call _ _, binary _ _ _ | binary _ _ _, literal _ | binary _ _ _, string _
  | binary _ _ _, list _ _ | binary _ _ _, dict _ _ | binary _ _ _, call _ _ => isFalse nofun

/-- Decides whether two lists of expressions are equal. -/
def decEqList : (xs ys : List Expr) → Decidable (xs = ys)
  | [], [] => isTrue rfl
  | x :: xs, y :: ys =>
    have := decEq x y
    have := decEqList xs ys
    decidable_of_iff (x = y ∧ xs = ys) (by simp)
  | [], _ :: _ | _ :: _, [] => isFalse nofun

/-- Decides whether two lists of entries are equal. -/
def decEqEntries : (xs ys : List (Expr × Expr)) → Decidable (xs = ys)
  | [], [] => isTrue rfl
  | (k, v) :: xs, (l, w) :: ys =>
    have := decEq k l
    have := decEq v w
    have := decEqEntries xs ys
    decidable_of_iff (k = l ∧ v = w ∧ xs = ys) (by simp [and_assoc])
  | [], _ :: _ | _ :: _, [] => isFalse nofun

end

instance : DecidableEq Expr := decEq

/-- `key = value`, the form of a keyword argument. -/
def keyword (key : String) (value : Expr) : Expr :=
  binary (literal key) "=" value

/-- A list or dictionary with one element a line; any other expression as it is. -/
def toMultiline : Expr → Expr
  | list items _ => list items true
  | dict entries _ => dict entries true
  | e => e

/-- Whether a list or dictionary is to be written with one element a line. -/
def isMultiline : Expr → Bool
  | list _ multiline => multiline
  | dict _ multiline => multiline
  | _ => false

/-- The value of a string. -/
def string? : Expr → Option String
  | string value => some value
  | _ => none

/-- The items of a list. -/
def items? : Expr → Option (List Expr)
  | list items _ => some items
  | _ => none

/-- The key and the value of a keyword argument. -/
def keyword? : Expr → Option (String × Expr)
  | binary (literal key) op value => if op = "=" then some (key, value) else none
  | _ => none

@[simp]
theorem keyword?_keyword (key : String) (value : Expr) :
    (keyword key value).keyword? = some (key, value) := by
  simp [keyword, keyword?]

/-- Making an expression multi-line twice is making it so once. -/
@[simp]
theorem toMultiline_toMultiline (e : Expr) : e.toMultiline.toMultiline = e.toMultiline := by
  cases e <;> rfl

/-- A list of string expressions. -/
def strings (values : List String) : Expr :=
  list (values.map string) false

end Expr

end GoBuildRules
