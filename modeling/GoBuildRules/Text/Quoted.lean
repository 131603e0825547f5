import GoBuildRules.Text.Printable

/-!
# Quoted text in messages

Messages show names and paths between double quotes and single characters between single quotes.
Inside the quotes a backslash, the quote itself and the four controls with a short form (`\0`,
`\t`, `\n`, `\r`) are escaped by a backslash; every other character that is not plain is written
as its code point in lower-case hexadecimal digits between `\u{` and `}`.
-/

namespace GoBuildRules.Text

/-- The digits of a code point, in base 16 and without leading zeros. -/
def hexDigits (n : Nat) : List Char :=
  Nat.toDigits 16 n

/-- The form of `c` between two quotes `quote`. -/
def escape (quote c : Char) : List Char :=
  if c = '\x00' then ['\\', '0']
  else if c = '\t' then ['\\', 't']
  else if c = '\n' then ['\\', 'n']
  else if c = '\r' then ['\\', 'r']
  else if c = '\\' ∨ c = quote then ['\\', c]
  else if isPlain c then [c]
  else ['\\', 'u', '\x7b'] ++ hexDigits c.toNat ++ ['\x7d']

/-- The text between double quotes. -/
def quoted (s : String) : String :=
  String.ofList (['"'] ++ s.toList.flatMap (escape '"') ++ ['"'])

/-- The character between single quotes. -/
def quotedChar (c : Char) : String :=
  String.ofList (['\''] ++ escape '\'' c ++ ['\''])

end GoBuildRules.Text
