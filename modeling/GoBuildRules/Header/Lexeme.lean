import GoBuildRules.Header.Error
import GoBuildRules.Header.Literal
import GoBuildRules.Text.Blank
import GoBuildRules.Text.Letter
import GoBuildRules.Text.Lines
import GoBuildRules.Text.Quoted
import GoBuildRules.Text.Split

/-!
# The lexemes of a source file

A source file is a sequence of tokens and comments with blanks between them, each of which starts
on a line. Of the tokens only those are told apart that a header is made of: identifiers, string
literals (with the text they stand for), single marks and numbers.

`lex` gives all lexemes of a text up to its end or up to the first comment or literal that is
malformed. A line is one more than the number of line feeds before it.
-/

namespace GoBuildRules

/-- What a token is. -/
inductive TokenKind where
  | name (text : String)
  /-- A string literal, by the text it stands for. -/
  | literal (text : String)
  | mark (c : Char)
  | number
  deriving DecidableEq, Repr

/-- The token as a message about it shows it. -/
def TokenKind.describe : TokenKind → String
  | name text => text
  | literal text => Text.quoted text
  | mark c => String.ofList ['\'', c, '\'']
  | number => "literal"

/-- A comment, by the lines on which it starts and ends and its text without the comment marks. -/
structure Comment where
  first : Nat
  last : Nat
  lines : List String
  deriving DecidableEq, Repr

/-- A comment, or a token with the line on which it starts. -/
inductive Lexeme where
  | comment (c : Comment)
  | token (kind : TokenKind) (line : Nat)
  deriving DecidableEq, Repr

/-- How the lexemes of a text end: at its end, on some line, or at a malformed lexeme. -/
inductive Ending where
  | complete (line : Nat)
  | broken (e : HeaderError)
  deriving DecidableEq, Repr

namespace Lexeme

/-- A lexeme before its line is known. -/
inductive Item where
  | comment (lines : List String)
  | token (kind : TokenKind)
  deriving DecidableEq, Repr

/-- Why no lexeme could be read. -/
inductive Fault where
  | unterminatedComment
  | literal (fault : Literal.Fault)
  deriving DecidableEq, Repr

/-- The error for a malformed lexeme that starts on the given line. -/
def Fault.errorAt (line : Nat) : Fault → HeaderError
  | unterminatedComment => .unterminatedComment line
  | literal .unterminated => .unterminatedString line
  | literal (.unknownEscape escape) => .unknownEscape line escape

/-- A lexeme, how many line feeds it holds, and what follows it. -/
structure Scanned where
  item : Item
  feeds : Nat
  rest : List Char

/-- The lexeme that starts with `c`, which is not a blank. -/
def scan (c : Char) (cs : List Char) : Except Fault Scanned :=
  if c = '/' then
    match cs with
    | '/' :: body =>
      let text := body.takeWhile (· != '\n')
      .ok ⟨.comment [String.ofList text], 0, body.dropWhile (· != '\n')⟩
    | '*' :: body =>
      match Text.cutAt ['*', '/'] body with
      | none => .error .unterminatedComment
      | some (text, rest) =>
        .ok ⟨.comment ((Text.lines text).map String.ofList), Text.lineFeeds text, rest⟩
    | _ => .ok ⟨.token (.mark c), 0, cs⟩
  else if Text.startsName c then
    let text := cs.takeWhile Text.continuesName
    .ok ⟨.token (.name (String.ofList (c :: text))), 0, cs.dropWhile Text.continuesName⟩
  else if c = '"' then
    match Literal.read cs with
    | .error fault => .error (.literal fault)
    | .ok (bytes, rest) => .ok ⟨.token (.literal (Utf8.lossyText bytes)), 0, rest⟩
  else if c = '\x60' then
    match Text.cutAt ['\x60'] cs with
    | none => .error (.literal .unterminated)
    | some (text, rest) =>
      .ok ⟨.token (.literal (String.ofList text)), Text.lineFeeds text, rest⟩
  else if c.isDigit then
    .ok ⟨.token .number, 0, cs.dropWhile fun d => d.isAlphanum || d == '.'⟩
  else .ok ⟨.token (.mark c), 0, cs⟩

theorem length_dropWhile_le {α : Type} (p : α → Bool) (l : List α) :
    (l.dropWhile p).length ≤ l.length :=
  (List.dropWhile_suffix p).length_le

/-- What follows a lexeme is no longer than what follows its first character. -/
theorem length_rest_le {c : Char} {cs : List Char} {s : Scanned} (h : scan c cs = .ok s) :
    s.rest.length ≤ cs.length := by
  -- Comments and literals end where they are cut off; all others end with a run of characters.
  unfold scan at h
  split at h
  · split at h
    · obtain rfl := Except.ok.inj h
      exact Nat.le_succ_of_le (length_dropWhile_le _ _)
    · split at h
      · simp at h
      · rename_i hcut
        obtain rfl := Except.ok.inj h
        exact Nat.le_succ_of_le (Nat.le_of_lt (Text.length_lt_of_cutAt (by simp) hcut))
    · obtain rfl := Except.ok.inj h
      exact Nat.le_refl _
  · split at h
    · obtain rfl := Except.ok.inj h
      exact length_dropWhile_le _ _
    · split at h
      · split at h
        · simp at h
        · rename_i hread
          obtain rfl := Except.ok.inj h
          exact Nat.le_of_lt (Literal.length_lt_of_read hread)
      · split at h
        · split at h
          · simp at h
          · rename_i hcut
            obtain rfl := Except.ok.inj h
            exact Nat.le_of_lt (Text.length_lt_of_cutAt (by simp) hcut)
        · split at h
          · obtain rfl := Except.ok.inj h
            exact length_dropWhile_le _ _
          · obtain rfl := Except.ok.inj h
            exact Nat.le_refl _

/-- The lexeme of an item that starts on `line` and ends `feeds` lines below. -/
def ofItem (line feeds : Nat) : Item → Lexeme
  | .comment lines => .comment ⟨line, line + feeds, lines⟩
  | .token kind => .token kind line

/-- The lexemes of a text that starts on `line`. -/
def lex (line : Nat) (cs : List Char) : List Lexeme × Ending :=
  match cs with
  | [] => ([], .complete line)
  | c :: cs =>
    if Text.isBlank c then lex (line + Text.lineFeeds [c]) cs
    else
      match h : scan c cs with
      | .error fault => ([], .broken (fault.errorAt line))
      | .ok s =>
        have : s.rest.length ≤ cs.length := length_rest_le h
        let later := lex (line + s.feeds) s.rest
        (ofItem line s.feeds s.item :: later.1, later.2)
termination_by cs.length

end Lexeme

end GoBuildRules
