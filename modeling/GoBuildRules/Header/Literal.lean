import GoBuildRules.Text.Utf8

/-!
# String literals

The text between two double quotes. It may not hold a line feed, and a backslash starts an escape:
a letter for a control character, `\\`, `\"` or `\'` for itself, `\x` with two hexadecimal digits
or a backslash with three octal digits (at most `\377`) for one byte, and `\u` with four or `\U`
with eight hexadecimal digits for one character. The literal is a sequence of bytes, since a
character may be spelled by several escapes.
-/

namespace GoBuildRules.Literal

/-- Why a literal could not be read. -/
inductive Fault where
  | unterminated
  /-- The character after a backslash that starts no well-formed escape. -/
  | unknownEscape (escape : Char)
  deriving DecidableEq, Repr

/-- The value of `c` as a digit, when it is one in the given base. -/
def digit? (base : Nat) (c : Char) : Option Nat :=
  let value? :=
    if '0' ≤ c ∧ c ≤ '9' then some (c.toNat - '0'.toNat)
    else if 'a' ≤ c ∧ c ≤ 'z' then some (c.toNat - 'a'.toNat + 10)
    else if 'A' ≤ c ∧ c ≤ 'Z' then some (c.toNat - 'A'.toNat + 10)
    else none
  value?.filter fun value => value < base

/-- The number that the first `count` characters spell, when all of them are digits. -/
def number? (base count : Nat) (cs : List Char) : Option Nat :=
  if cs.length < count then none
  else ((cs.take count).mapM (digit? base)).map fun digits =>
    digits.foldl (fun value digit => value * base + digit) 0

/-- The bytes of the character with code point `n`, when there is one. -/
def charBytes? (n : Nat) : Option (List UInt8) :=
  if n.isValidChar then some (String.utf8EncodeChar (Char.ofNat n)) else none

/-- The one byte `n`, when it is a byte. -/
def byte? (n : Nat) : Option (List UInt8) :=
  if n < 256 then some [UInt8.ofNat n] else none

/-- The character that a one-letter escape stands for. -/
def simpleEscape? : Char → Option Char
  | 'a' => some '\x07'
  | 'b' => some '\x08'
  | 'f' => some '\x0c'
  | 'n' => some '\n'
  | 'r' => some '\r'
  | 't' => some '\t'
  | 'v' => some '\x0b'
  | '\\' => some '\\'
  | '"' => some '"'
  | '\'' => some '\''
  | _ => none

/-- The bytes of the escape that `c`, directly after the backslash, starts, and how many of the
characters after `c` belong to it. -/
def escape? (c : Char) (rest : List Char) : Option (List UInt8 × Nat) :=
  match simpleEscape? c with
  | some d => some (String.utf8EncodeChar d, 0)
  | none =>
    if c = 'x' then ((number? 16 2 rest).bind byte?).map fun bytes => (bytes, 2)
    else if '0' ≤ c ∧ c ≤ '7' then
      ((number? 8 3 (c :: rest)).bind byte?).map fun bytes => (bytes, 2)
    else if c = 'u' then ((number? 16 4 rest).bind charBytes?).map fun bytes => (bytes, 4)
    else if c = 'U' then ((number? 16 8 rest).bind charBytes?).map fun bytes => (bytes, 8)
    else none

/-- The bytes of the literal whose opening quote stands before `cs`, and what follows its closing
quote. -/
def read (cs : List Char) : Except Fault (List UInt8 × List Char) :=
  match cs with
  | [] => .error .unterminated
  | '"' :: rest => .ok ([], rest)
  | '\n' :: _ => .error .unterminated
  | ['\\'] => .error .unterminated
  | '\\' :: c :: rest =>
    match escape? c rest with
    | none => .error (.unknownEscape c)
    | some (bytes, width) =>
      (read (rest.drop width)).map fun (more, after) => (bytes ++ more, after)
  | c :: rest => (read rest).map fun (more, after) => (String.utf8EncodeChar c ++ more, after)
termination_by cs.length

/-- What follows a literal is shorter than the text that the literal starts. -/
theorem length_lt_of_read {cs after : List Char} {bytes : List UInt8}
    (h : read cs = .ok (bytes, after)) : after.length < cs.length := by
  fun_induction read cs generalizing bytes with
  | case1 => simp at h
  | case2 rest =>
    simp only [Except.ok.injEq, Prod.mk.injEq] at h
    simp [h.2]
  | case3 => simp at h
  | case4 => simp at h
  | case5 => simp at h
  | case6 c rest escaped width hc ih =>
    cases hr : read (rest.drop width) with
    | error e => simp [hr, Except.map] at h
    | ok r =>
      obtain ⟨more, rest'⟩ := r
      simp only [hr, Except.map, Except.ok.injEq, Prod.mk.injEq] at h
      obtain ⟨-, rfl⟩ := h
      have := ih hr
      rw [List.length_drop] at this
      simp only [List.length_cons]
      omega
  | case7 c rest _ _ _ _ ih =>
    cases hr : read rest with
    | error e => simp [hr, Except.map] at h
    | ok r =>
      obtain ⟨more, rest'⟩ := r
      simp only [hr, Except.map, Except.ok.injEq, Prod.mk.injEq] at h
      obtain ⟨-, rfl⟩ := h
      have := ih hr
      simp only [List.length_cons]
      omega

end GoBuildRules.Literal
