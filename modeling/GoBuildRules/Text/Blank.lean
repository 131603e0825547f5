import GoBuildRules.Text.Ranges

/-!
# Blanks

The characters with the Unicode property *White_Space*, and the two operations that know of
blanks: `trim` takes them from both ends of a text, `fields` cuts a text at every run of them.
-/

namespace GoBuildRules.Text

/-- The code points with the property *White_Space*. -/
def blankRanges : List (Nat × Nat) :=
  [(0x9, 0xd), (0x20, 0x20), (0x85, 0x85), (0xa0, 0xa0), (0x1680, 0x1680), (0x2000, 0x200a),
   (0x2028, 0x2029), (0x202f, 0x202f), (0x205f, 0x205f), (0x3000, 0x3000)]

/-- Whether `c` is white space. -/
def isBlank (c : Char) : Bool :=
  covered blankRanges c.toNat

/-- The text without the blanks at its two ends. -/
def trim (cs : List Char) : List Char :=
  ((cs.dropWhile isBlank).reverse.dropWhile isBlank).reverse

/-- The maximal runs of characters that are not blank, in order. -/
def fields (cs : List Char) : List (List Char) :=
  (cs.splitOnP isBlank).filter (fun run => !run.isEmpty)

@[simp]
theorem trim_nil : trim [] = [] := rfl

@[simp]
theorem fields_nil : fields [] = [] := rfl

end GoBuildRules.Text
