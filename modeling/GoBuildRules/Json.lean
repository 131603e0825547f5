/-!
# JSON text

JSON values without numbers and null, whose objects keep the order of their members, and their
indented text: every element and member on a line of its own, two spaces deeper than what encloses
it, and nothing between the brackets of an empty array or object.
-/

namespace GoBuildRules

/-- A JSON value. -/
inductive Json where
  | bool (value : Bool)
  | string (value : String)
  | array (elements : List Json)
  | object (members : List (String × Json))
  deriving Repr, Inhabited

namespace Json

/-- The digit for a number below 16. -/
def hexDigit (n : Nat) : Char :=
  Nat.digitChar n

/-- The form of a character between the quotes of a string. -/
def escape (c : Char) : List Char :=
  if c = '"' then ['\\', '"']
  else if c = '\\' then ['\\', '\\']
  else if c = '\x08' then ['\\', 'b']
  else if c = '\x0c' then ['\\', 'f']
  else if c = '\n' then ['\\', 'n']
  else if c = '\r' then ['\\', 'r']
  else if c = '\t' then ['\\', 't']
  else if c.toNat < 32 then
    ['\\', 'u', '0', '0', hexDigit (c.toNat / 16), hexDigit (c.toNat % 16)]
  else [c]

/-- A string between its quotes. -/
def quote (s : String) : List Char :=
  '"' :: (s.toList.flatMap escape ++ ['"'])

/-- The start of a line at the given depth. -/
def newline (depth : Nat) : List Char :=
  '\n' :: List.replicate (2 * depth) ' '

/-- Parts between brackets, each on a line of its own. -/
def block (depth : Nat) (opening closing : Char) (parts : List (List Char)) : List Char :=
  if parts.isEmpty then [opening, closing]
  else
    opening :: ([','].intercalate (parts.map (newline (depth + 1) ++ ·)) ++ newline depth ++
      [closing])

mutual

/-- The text of a value whose first line is at the given depth. -/
def write (depth : Nat) : Json → List Char
  | bool true => ['t', 'r', 'u', 'e']
  | bool false => ['f', 'a', 'l', 's', 'e']
  | string value => quote value
  | array elements => block depth '[' ']' (writeElements (depth + 1) elements)
  | object members => block depth '\x7b' '\x7d' (writeMembers (depth + 1) members)

/-- The texts of the elements of an array. -/
def writeElements (depth : Nat) : List Json → List (List Char)
  | [] => []
  | value :: rest => write depth value :: writeElements depth rest

/-- The texts of the members of an object. -/
def writeMembers (depth : Nat) : List (String × Json) → List (List Char)
  | [] => []
  | (key, value) :: rest =>
    (quote key ++ [':', ' '] ++ write depth value) :: writeMembers depth rest

end

/-- The indented text of a value. -/
def pretty (value : Json) : String :=
  String.ofList (write 0 value)

end Json

end GoBuildRules
