import Mathlib.Data.List.Basic
import GoBuildRules.Header.Literal
import GoBuildRules.Json

/-!
# Tokens of JSON text

JSON text consists of marks, words and quoted strings, with blanks between them that mean nothing
(`Json.lex`). The text that is written for a value has the tokens of the value, whatever its depth
and whatever follows it (`Json.lexes_write`): a quoted string ends at its own quote, since every
quote inside it is escaped (`Json.unquote_quote`).
-/

namespace GoBuildRules.Json

/-! ## Quoted strings -/

/-- The character that a backslash and a letter stand for. -/
def unescape? : Char → Option Char
  | '"' => some '"'
  | '\\' => some '\\'
  | '/' => some '/'
  | 'b' => some '\x08'
  | 'f' => some '\x0c'
  | 'n' => some '\n'
  | 'r' => some '\r'
  | 't' => some '\t'
  | _ => none

/-- The character with a code point of four hexadecimal digits, when there is one. -/
def ofHex? (digits : List Char) : Option Char :=
  (Literal.number? 16 4 digits).bind fun n => if n.isValidChar then some (Char.ofNat n) else none

/-- A read string with one more character before it. -/
def prepend (c : Char) : List Char × List Char → List Char × List Char
  | (s, after) => (c :: s, after)

/-- The string whose opening quote stands before the text, and what follows its closing quote. -/
def unquote : List Char → Option (List Char × List Char)
  | [] => none
  | '"' :: rest => some ([], rest)
  | '\\' :: 'u' :: a :: b :: c :: d :: rest =>
    (ofHex? [a, b, c, d]).bind fun e => (unquote rest).map (prepend e)
  | '\\' :: c :: rest => (unescape? c).bind fun e => (unquote rest).map (prepend e)
  | c :: rest => if c.toNat < 32 then none else (unquote rest).map (prepend c)

theorem exists_of_map_prepend {c : Char} {r : Option (List Char × List Char)}
    {s after : List Char} (h : r.map (prepend c) = some (s, after)) : ∃ t, r = some (t, after) := by
  obtain ⟨⟨t, later⟩, hr, heq⟩ := Option.map_eq_some_iff.mp h
  obtain ⟨-, rfl⟩ := Prod.mk.inj heq
  exact ⟨t, hr⟩

/-- What follows a quoted string is shorter than the text that the string starts. -/
theorem length_lt_of_unquote {cs s after : List Char} (h : unquote cs = some (s, after)) :
    after.length < cs.length := by
  fun_induction unquote cs generalizing s with
  | case1 => cases h
  | case2 rest =>
    obtain ⟨-, rfl⟩ := Prod.mk.inj (Option.some.inj h)
    exact Nat.lt_succ_self _
  | case3 a b c d rest ih =>
    obtain ⟨e, -, h⟩ := Option.bind_eq_some_iff.mp h
    obtain ⟨t, hrest⟩ := exists_of_map_prepend h
    have := ih hrest
    simp only [List.length_cons]
    omega
  | case4 c rest _ ih =>
    obtain ⟨e, -, h⟩ := Option.bind_eq_some_iff.mp h
    obtain ⟨t, hrest⟩ := exists_of_map_prepend h
    have := ih hrest
    simp only [List.length_cons]
    omega
  | case5 => cases h
  | case6 c rest _ _ _ _ ih =>
    obtain ⟨t, hrest⟩ := exists_of_map_prepend h
    exact Nat.lt_succ_of_lt (ih hrest)

/-- The four digits of a control character are read back. -/
theorem ofHex?_of_lt {n : Nat} (h : n < 32) :
    ofHex? ['0', '0', hexDigit (n / 16), hexDigit (n % 16)] = some (Char.ofNat n) := by
  revert n
  decide

/-- An escaped character is read back. -/
theorem unquote_escape_append (c : Char) (rest : List Char) :
    unquote (escape c ++ rest) = (unquote rest).map (prepend c) := by
  unfold escape
  -- The letters of short escapes first; then the four digits, and last what is written as it is.
  split_ifs with hquote hbackslash hb hf hn hr ht hcontrol
  · subst hquote
    rfl
  · subst hbackslash
    rfl
  · subst hb
    rfl
  · subst hf
    rfl
  · subst hn
    rfl
  · subst hr
    rfl
  · subst ht
    rfl
  · simp only [List.cons_append, List.nil_append, unquote, ofHex?_of_lt hcontrol, Option.bind_some,
      Char.ofNat_toNat]
  · rw [List.singleton_append, unquote, if_neg hcontrol]
    · exact hquote
    · exact fun _ _ _ _ _ heq _ => hbackslash heq
    · exact fun _ _ heq _ => hbackslash heq

/-- A quoted string ends at its own quote. -/
theorem unquote_quote (s : String) (rest : List Char) :
    unquote (s.toList.flatMap escape ++ '"' :: rest) = some (s.toList, rest) := by
  induction s.toList with
  | nil => rfl
  | cons c cs ih =>
    rw [List.flatMap_cons, List.append_assoc, unquote_escape_append, ih]
    rfl

/-! ## Tokens -/

/-- A mark, a word or a quoted string of JSON text. -/
inductive Token where
  | arrayStart
  | arrayEnd
  | objectStart
  | objectEnd
  | comma
  | colon
  | bool (value : Bool)
  | string (value : String)
  deriving DecidableEq, Repr

/-- The token of one character. -/
def Token.ofMark? : Char → Option Token
  | '[' => some arrayStart
  | ']' => some arrayEnd
  | '\x7b' => some objectStart
  | '\x7d' => some objectEnd
  | ',' => some comma
  | ':' => some colon
  | _ => none

/-- Whether the character may stand between tokens. -/
def isBlank (c : Char) : Bool :=
  c == ' ' || c == '\n' || c == '\r' || c == '\t'

/-- The tokens of JSON text. -/
def lex (cs : List Char) : Option (List Token) :=
  match cs with
  | [] => some []
  | 't' :: 'r' :: 'u' :: 'e' :: rest => (lex rest).map (.bool true :: ·)
  | 'f' :: 'a' :: 'l' :: 's' :: 'e' :: rest => (lex rest).map (.bool false :: ·)
  | '"' :: rest =>
    match h : unquote rest with
    | none => none
    | some (s, after) =>
      have : after.length < rest.length := length_lt_of_unquote h
      (lex after).map (.string (String.ofList s) :: ·)
  | c :: rest =>
    match Token.ofMark? c with
    | some mark => (lex rest).map (mark :: ·)
    | none => if isBlank c then lex rest else none
termination_by cs.length

mutual

/-- The tokens of a value. -/
def tokens : Json → List Token
  | bool value => [.bool value]
  | string value => [.string value]
  | array elements => .arrayStart :: ([.comma].intercalate (elementTokens elements) ++ [.arrayEnd])
  | object members => .objectStart :: ([.comma].intercalate (memberTokens members) ++ [.objectEnd])

/-- The tokens of the elements of an array. -/
def elementTokens : List Json → List (List Token)
  | [] => []
  | value :: rest => tokens value :: elementTokens rest

/-- The tokens of the members of an object. -/
def memberTokens : List (String × Json) → List (List Token)
  | [] => []
  | (key, value) :: rest => (.string key :: .colon :: tokens value) :: memberTokens rest

end

/-- The text has the tokens, whatever follows it. -/
def Lexes (text : List Char) (ts : List Token) : Prop :=
  ∀ rest, lex (text ++ rest) = (lex rest).map (ts ++ ·)

namespace Lexes

variable {a b : List Char} {s t : List Token}

theorem nil : Lexes [] [] := fun rest => by simp

theorem append (ha : Lexes a s) (hb : Lexes b t) : Lexes (a ++ b) (s ++ t) := fun rest => by
  rw [List.append_assoc, ha, hb, Option.map_map]
  congr 1
  funext ts
  exact (List.append_assoc s t ts).symm

theorem mark {c : Char} {token : Token} (h : Token.ofMark? c = some token) :
    Lexes [c] [token] := fun rest => by
  unfold Token.ofMark? at h
  split at h
  case h_7 => cases h
  all_goals
    obtain rfl := Option.some.inj h
    simp [lex, Token.ofMark?]

theorem blank {c : Char} (h : isBlank c = true) : Lexes [c] [] := fun rest => by
  simp only [isBlank, Bool.or_eq_true, beq_iff_eq] at h
  rcases h with ((rfl | rfl) | rfl) | rfl <;> simp [lex, Token.ofMark?, isBlank]

theorem blanks (h : ∀ c ∈ a, isBlank c = true) : Lexes a [] := by
  induction a with
  | nil => exact nil
  | cons c cs ih =>
    exact (blank (h c List.mem_cons_self)).append (ih fun d hd => h d (List.mem_cons_of_mem _ hd))

theorem newline (depth : Nat) : Lexes (Json.newline depth) [] := by
  refine blanks fun c hc => ?_
  rcases List.mem_cons.mp hc with rfl | hc
  · rfl
  · rw [List.eq_of_mem_replicate hc]
    rfl

theorem quote (s : String) : Lexes (Json.quote s) [.string s] := fun rest => by
  have hread : unquote (s.toList.flatMap escape ++ ['"'] ++ rest) = some (s.toList, rest) := by
    rw [List.append_assoc]
    exact unquote_quote s rest
  rw [Json.quote, List.cons_append, lex]
  split
  · rename_i hnone
    cases hread.symm.trans hnone
  · rename_i t after hsome
    obtain ⟨rfl, rfl⟩ := Prod.mk.inj (Option.some.inj (hread.symm.trans hsome))
    rw [String.ofList_toList]
    rfl

/-- Texts with commas between them have their tokens with commas between them. -/
theorem intercalate {α : Type} {text : α → List Char} {ts : α → List Token} {items : List α}
    (h : ∀ item ∈ items, Lexes (text item) (ts item)) :
    Lexes ([','].intercalate (items.map text)) ([.comma].intercalate (items.map ts)) := by
  induction items with
  | nil => exact nil
  | cons item items ih =>
    have hitem := h item List.mem_cons_self
    cases items with
    | nil =>
      simp only [List.map_singleton, List.intercalate_singleton]
      exact hitem
    | cons next items =>
      have hcomma : Lexes [','] [.comma] := mark rfl
      simp only [List.map_cons, List.intercalate_cons_cons] at ih ⊢
      exact (hitem.append hcomma).append (ih fun d hd => h d (List.mem_cons_of_mem _ hd))

/-- Parts between brackets have their tokens, with commas between them, between the brackets. -/
theorem block {α : Type} {text : α → List Char} {ts : α → List Token} {items : List α}
    {opening closing : Char} {first last : Token} (depth : Nat)
    (hfirst : Token.ofMark? opening = some first) (hlast : Token.ofMark? closing = some last)
    (h : ∀ item ∈ items, Lexes (text item) (ts item)) :
    Lexes (Json.block depth opening closing (items.map text))
      (first :: ([.comma].intercalate (items.map ts) ++ [last])) := by
  rw [Json.block]
  split
  · rename_i hempty
    rw [List.map_eq_nil_iff.mp (List.isEmpty_iff.mp hempty)]
    exact (mark hfirst).append (mark hlast)
  · have hparts := intercalate fun item hitem => (newline (depth + 1)).append (h item hitem)
    have hbody := (hparts.append (newline depth)).append (mark hlast)
    rw [List.append_nil] at hbody
    rw [List.map_map]
    exact (mark hfirst).append hbody

end Lexes

/-! ## Written values -/

theorem writeElements_eq_map (depth : Nat) (elements : List Json) :
    writeElements depth elements = elements.map (write depth) := by
  induction elements with
  | nil => rfl
  | cons v rest ih => rw [writeElements, ih, List.map_cons]

theorem writeMembers_eq_map (depth : Nat) (members : List (String × Json)) :
    writeMembers depth members =
      members.map fun (key, v) => quote key ++ [':', ' '] ++ write depth v := by
  induction members with
  | nil => rfl
  | cons member rest ih =>
    obtain ⟨key, v⟩ := member
    rw [writeMembers, ih, List.map_cons]

theorem elementTokens_eq_map (elements : List Json) :
    elementTokens elements = elements.map tokens := by
  induction elements with
  | nil => rfl
  | cons v rest ih => rw [elementTokens, ih, List.map_cons]

/-- The tokens of a member of an object. -/
def tokensOfMember (member : String × Json) : List Token :=
  .string member.1 :: .colon :: member.2.tokens

theorem memberTokens_eq_map (members : List (String × Json)) :
    memberTokens members = members.map tokensOfMember := by
  induction members with
  | nil => rfl
  | cons member rest ih =>
    obtain ⟨key, v⟩ := member
    rw [memberTokens, ih, List.map_cons, tokensOfMember]

/-- What holds of a value when it holds of its elements or members holds of every value. -/
theorem parts_induction {motive : Json → Prop} (bool : ∀ value, motive (.bool value))
    (string : ∀ value, motive (.string value))
    (array : ∀ elements, (∀ v ∈ elements, motive v) → motive (.array elements))
    (object : ∀ members, (∀ member ∈ members, motive member.2) → motive (.object members)) :
    ∀ v : Json, motive v
  | .bool value => bool value
  | .string value => string value
  | .array elements => array elements fun v _ => parts_induction bool string array object v
  | .object members =>
    object members fun member _ => parts_induction bool string array object member.2
termination_by v => sizeOf v
decreasing_by
  · have := List.sizeOf_lt_of_mem ‹v ∈ elements›
    simp only [Json.array.sizeOf_spec]
    omega
  · obtain ⟨key, v⟩ := member
    have := List.sizeOf_lt_of_mem ‹(key, v) ∈ members›
    simp only [Json.object.sizeOf_spec]
    simp only [Prod.mk.sizeOf_spec] at this
    omega

/-- The text of a value has the tokens of the value at every depth. -/
theorem lexes_write (v : Json) (depth : Nat) : Lexes (write depth v) v.tokens := by
  induction v using parts_induction generalizing depth with
  | bool value =>
    intro rest
    cases value <;> simp [write, tokens, lex]
  | string value => exact .quote value
  | array elements ih =>
    rw [write, tokens, writeElements_eq_map, elementTokens_eq_map]
    exact .block depth rfl rfl fun v hv => ih v hv (depth + 1)
  | object members ih =>
    rw [write, tokens, writeMembers_eq_map, memberTokens_eq_map]
    refine .block depth rfl rfl fun member hmember => ?_
    have hcolon : Lexes [':', ' '] [.colon] := (Lexes.mark rfl).append (.blank rfl)
    exact ((Lexes.quote member.1).append hcolon).append (ih member hmember (depth + 1))

/-- The tokens of the indented text of a value. -/
theorem lex_pretty (v : Json) : lex v.pretty.toList = some v.tokens := by
  have hwrite := lexes_write v 0 []
  rw [List.append_nil] at hwrite
  rw [pretty, String.toList_ofList, hwrite]
  simp [lex]

end GoBuildRules.Json
