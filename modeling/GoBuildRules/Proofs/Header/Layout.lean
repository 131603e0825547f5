import Mathlib.Data.List.Chain
import GoBuildRules.Proofs.Header.Lexing
import GoBuildRules.Proofs.Text.Cut
import GoBuildRules.Proofs.Text.Utf8

/-!
# Texts that are laid out from words

A header is written word by word (`Word`), with blanks and comments before each word (`Filler`). A
layout of words (`Layout`) is such a text: all that it has to mind is that two identifiers do not
touch.

`Layout.spells` says that the tokens of the text are the words, whatever they are laid out with.
The lemmas on its parts are about `Spells`, which says the same of a text that goes on.
-/

namespace GoBuildRules

/-! ## Words -/

/-- An identifier. -/
structure Identifier where
  first : Char
  rest : List Char
  starts : Text.startsName first = true
  continues : ∀ c ∈ rest, Text.continuesName c = true

/-- The identifier as text. -/
def Identifier.text (i : Identifier) : String :=
  String.ofList (i.first :: i.rest)

/-- A string literal, by the text it stands for and the way it is written. -/
inductive StringLiteral where
  /-- Between back quotes, as it is. -/
  | raw (text : String) (h : '\x60' ∉ text.toList)
  /-- Between double quotes, with escapes. -/
  | quoted (text : String)

namespace StringLiteral

/-- The text that the literal stands for. -/
def text : StringLiteral → String
  | raw text _ => text
  | quoted text => text

/-- A character between double quotes: a backslash stands before a double quote and before a
backslash, and a line feed is escaped. -/
def escaped : Char → List Char
  | '"' => ['\\', '"']
  | '\\' => ['\\', '\\']
  | '\n' => ['\\', 'n']
  | c => [c]

/-- The literal as it is written. -/
def chars : StringLiteral → List Char
  | raw text _ => '\x60' :: (text.toList ++ ['\x60'])
  | quoted text => '"' :: (text.toList.flatMap escaped ++ ['"'])

end StringLiteral

/-- A mark that stands between the words of a header. -/
inductive Mark where
  | opening
  | closing
  | semicolon
  | dot
  deriving DecidableEq, Repr

/-- The mark as it is written. -/
def Mark.char : Mark → Char
  | opening => '('
  | closing => ')'
  | semicolon => ';'
  | dot => '.'

/-- A word of a header. -/
inductive Word where
  | name (i : Identifier)
  | literal (l : StringLiteral)
  | mark (m : Mark)

namespace Word

/-- The token that the word is. -/
def kind : Word → TokenKind
  | name i => .name i.text
  | literal l => .literal l.text
  | mark m => .mark m.char

/-- The word as it is written. -/
def chars : Word → List Char
  | name i => i.first :: i.rest
  | literal l => l.chars
  | mark m => [m.char]

/-- Whether the word is an identifier. -/
def isName : Word → Bool
  | name _ => true
  | _ => false

end Word

/-- What may stand between two words. -/
inductive Filler where
  | blank (c : Char) (h : Text.isBlank c = true)
  /-- A comment up to the end of the line. -/
  | lineComment (text : List Char) (h : '\n' ∉ text)
  /-- A comment between its marks. -/
  | blockComment (text : List Char) (h : ¬ ['*', '/'] <:+: text)

/-- The filler as it is written. -/
def Filler.chars : Filler → List Char
  | blank c _ => [c]
  | lineComment text _ => '/' :: '/' :: (text ++ ['\n'])
  | blockComment text _ => '/' :: '*' :: (text ++ ['*', '/'])

/-- A word with what stands before it. -/
structure Placed where
  gap : List Filler
  word : Word

/-- The word as it is written, with what stands before it. -/
def Placed.chars (p : Placed) : List Char :=
  p.gap.flatMap Filler.chars ++ p.word.chars

/-- Where two identifiers follow each other, something stands between them. -/
def Placed.Separate (a b : Placed) : Prop :=
  a.word.isName = true → b.word.isName = true → b.gap ≠ []

/-- A way to write the words. -/
structure Layout (words : List Word) where
  placed : List Placed
  words_eq : placed.map Placed.word = words
  separate : placed.IsChain Placed.Separate

/-- The text that is laid out. -/
def Layout.chars {words : List Word} (layout : Layout words) : List Char :=
  layout.placed.flatMap Placed.chars

/-! ## The tokens of a text -/

namespace Lexeme

/-- The token that a lexeme is, unless it is a comment. -/
def kind? : Lexeme → Option TokenKind
  | comment _ => none
  | token kind _ => some kind

/-- The tokens among the lexemes. -/
def kinds (ls : List Lexeme) : List TokenKind :=
  ls.filterMap kind?

theorem kinds_append (ls more : List Lexeme) : kinds (ls ++ more) = kinds ls ++ kinds more :=
  List.filterMap_append

/-- Documentation does not change the tokens. -/
theorem map_kind_documented (previous : Nat) (group : Option CommentGroup) (ls : List Lexeme) :
    (Token.documented previous group ls).map Token.kind = kinds ls := by
  induction ls generalizing previous group with
  | nil => rfl
  | cons l rest ih =>
    cases l with
    | comment c => exact ih _ _
    | token kind line => exact congrArg (kind :: ·) (ih _ _)

/-- Before `ds` the text holds just the tokens, and `ds` is lexed on its own. -/
def Spells (cs : List Char) (ks : List TokenKind) (ds : List Char) : Prop :=
  ∀ line, ∃ ls last, kinds ls = ks ∧
    lex line (cs ++ ds) = (ls ++ (lex last ds).1, (lex last ds).2)

/-- An identifier that ends before the text is not continued by it. -/
def EndsName (ds : List Char) : Prop :=
  ∀ c ∈ ds.head?, Text.continuesName c = false

variable {c : Char} {cs cs' ds : List Char} {ks ks' : List TokenKind}

namespace Spells

theorem nil (ds : List Char) : Spells [] [] ds :=
  fun line => ⟨[], line, rfl, rfl⟩

theorem append (h : Spells cs ks (cs' ++ ds)) (h' : Spells cs' ks' ds) :
    Spells (cs ++ cs') (ks ++ ks') ds := by
  intro line
  obtain ⟨ls, last, hkinds, hlex⟩ := h line
  obtain ⟨ls', last', hkinds', hlex'⟩ := h' last
  refine ⟨ls ++ ls', last', by rw [kinds_append, hkinds, hkinds'], ?_⟩
  rw [List.append_assoc, hlex, hlex', List.append_assoc]

theorem blank (hblank : Text.isBlank c = true) : Spells [c] [] ds :=
  fun line => ⟨[], line + Text.lineFeeds [c], rfl, lex_blank hblank⟩

theorem of_comment {lines : List String} {feeds : Nat} (hblank : Text.isBlank c = false)
    (h : Scans c (cs ++ ds) ⟨.comment lines, feeds, ds⟩) : Spells (c :: cs) [] ds :=
  fun line => ⟨[ofItem line feeds (.comment lines)], line + feeds, rfl,
    lex_scan hblank (scan_eq_ok_iff.mpr h)⟩

theorem of_token {kind : TokenKind} {feeds : Nat} (hblank : Text.isBlank c = false)
    (h : Scans c (cs ++ ds) ⟨.token kind, feeds, ds⟩) : Spells (c :: cs) [kind] ds :=
  fun line => ⟨[.token kind line], line + feeds, rfl, lex_scan hblank (scan_eq_ok_iff.mpr h)⟩

end Spells

theorem takeWhile_append_of_all {p : Char → Bool} (h : ∀ c ∈ cs, p c = true)
    (hds : ∀ d ∈ ds.head?, p d = false) :
    (cs ++ ds).takeWhile p = cs ∧ (cs ++ ds).dropWhile p = ds := by
  have htake : ds.takeWhile p = [] ∧ ds.dropWhile p = ds := by
    cases ds with
    | nil => exact ⟨rfl, rfl⟩
    | cons d ds =>
      have hd : p d = false := hds d rfl
      simp [hd]
  rw [List.takeWhile_append_of_pos h, List.dropWhile_append_of_pos h, htake.1, htake.2,
    List.append_nil]
  exact ⟨rfl, rfl⟩

/-! ## Fillers and words in a text -/

theorem spells_filler (f : Filler) (ds : List Char) : Spells f.chars [] ds := by
  cases f with
  | blank c h => exact Spells.blank h
  | lineComment text h =>
    -- The comment is scanned without its line feed, which is a blank after it.
    have hall : ∀ c ∈ text, (c != '\n') = true := fun c hc => by
      rw [bne_iff_ne]
      rintro rfl
      exact h hc
    have hfeed : ∀ d ∈ ('\n' :: ds).head?, (d != '\n') = false := by simp
    obtain ⟨htake, hdrop⟩ := takeWhile_append_of_all hall hfeed
    have hscans := Scans.lineComment (text ++ '\n' :: ds)
    rw [htake, hdrop] at hscans
    have hcomment : Spells ('/' :: '/' :: text) [] (['\n'] ++ ds) := .of_comment (by decide) hscans
    have hend : Spells ['\n'] [] ds := .blank (by decide)
    exact hcomment.append hend
  | blockComment text h =>
    have hscans := Scans.blockComment (Text.cutAt_pair (by decide) h ds)
    have hcomment : Spells ('/' :: '*' :: (text ++ ['*', '/'])) [] ds :=
      .of_comment (by decide) (by rwa [List.cons_append, List.append_assoc])
    exact hcomment

theorem spells_gap (gap : List Filler) (ds : List Char) :
    Spells (gap.flatMap Filler.chars) [] ds := by
  induction gap with
  | nil => exact Spells.nil ds
  | cons f gap ih => exact (spells_filler f _).append ih

/-- A character between double quotes spells its bytes. -/
theorem spelling_escaped (c : Char) {body : List Char} {bytes : List UInt8}
    (h : Literal.Spelling body bytes) :
    Literal.Spelling (StringLiteral.escaped c ++ body) (String.utf8EncodeChar c ++ bytes) := by
  have hshort : ∀ {letter d : Char}, (letter, d) ∈ Literal.shortEscapes →
      Literal.Spelling ('\\' :: letter :: body) (String.utf8EncodeChar d ++ bytes) :=
    fun hletter => .escape (.short hletter) h
  unfold StringLiteral.escaped
  split
  · exact hshort (by decide)
  · exact hshort (by decide)
  · exact hshort (by decide)
  · rename_i hquote hbackslash hfeed
    exact .plain hquote hbackslash hfeed h

theorem spelling_flatMap_escaped (cs : List Char) :
    Literal.Spelling (cs.flatMap StringLiteral.escaped) (cs.flatMap String.utf8EncodeChar) := by
  induction cs with
  | nil => exact .nil
  | cons c cs ih => exact spelling_escaped c ih

theorem isBlank_eq_false_of_startsName (h : Text.startsName c = true) : Text.isBlank c = false := by
  refine Bool.eq_false_iff.mpr fun hblank => ?_
  have hcontinues := Text.continuesName_of_startsName h
  rw [Text.continuesName_eq_false_of_isBlank hblank] at hcontinues
  cases hcontinues

/-- A literal that spells the bytes of a text is the token of the text. -/
theorem spells_quoted {body : List Char} {s : String}
    (h : Literal.Spelling body (Utf8.encode s)) (ds : List Char) :
    Spells ('"' :: (body ++ ['"'])) [.literal s] ds := by
  have hread : Literal.read (body ++ ['"'] ++ ds) = .ok (Utf8.encode s, ds) :=
    Literal.read_eq_ok_iff.mpr ⟨body, List.append_assoc _ _ _, h⟩
  have hscans := Scans.quoted hread
  rw [Utf8.lossyText_encode] at hscans
  exact .of_token (by decide) hscans

theorem spells_literal (l : StringLiteral) (ds : List Char) :
    Spells l.chars [.literal l.text] ds := by
  cases l with
  | raw text h =>
    have hscans := Scans.raw (Text.cutAt_singleton h ds)
    rw [String.ofList_toList] at hscans
    have hliteral : Spells ('\x60' :: (text.toList ++ ['\x60'])) [.literal text] ds :=
      .of_token (by decide) (by rwa [List.append_assoc])
    exact hliteral
  | quoted text => exact spells_quoted (spelling_flatMap_escaped text.toList) ds

theorem spells_mark (m : Mark) (ds : List Char) : Spells [m.char] [.mark m.char] ds := by
  have hmark : Text.isBlank m.char = false ∧ m.char ≠ '/' ∧ Text.startsName m.char = false ∧
      m.char ≠ '"' ∧ m.char ≠ '\x60' ∧ m.char.isDigit = false := by
    cases m <;> decide
  obtain ⟨hblank, hslash, hname, hquote, hraw, hdigit⟩ := hmark
  exact .of_token hblank (.mark ds hslash hname hquote hraw hdigit)

theorem spells_word (w : Word) (h : w.isName = true → EndsName ds) :
    Spells w.chars [w.kind] ds := by
  cases w with
  | name i =>
    obtain ⟨htake, hdrop⟩ := takeWhile_append_of_all i.continues (h rfl)
    have hscans := Scans.name (i.rest ++ ds) i.starts
    rw [htake, hdrop] at hscans
    exact .of_token (isBlank_eq_false_of_startsName i.starts) hscans
  | literal l => exact spells_literal l ds
  | mark m => exact spells_mark m ds

end Lexeme

/-! ## Layouts -/

open Lexeme

/-- No filler continues an identifier. -/
theorem Filler.endsName (f : Filler) (ds : List Char) : EndsName (f.chars ++ ds) := by
  cases f with
  | blank c h =>
    rintro _ ⟨⟩
    exact Text.continuesName_eq_false_of_isBlank h
  | lineComment text h =>
    rintro _ ⟨⟩
    decide
  | blockComment text h =>
    rintro _ ⟨⟩
    decide

/-- No other word continues an identifier. -/
theorem Word.endsName {w : Word} (h : w.isName = false) (ds : List Char) :
    EndsName (w.chars ++ ds) := by
  cases w with
  | name i => cases h
  | literal l =>
    cases l <;>
    · rintro _ ⟨⟩
      decide
  | mark m =>
    cases m <;>
    · rintro _ ⟨⟩
      decide

namespace Placed

variable {a b p : Placed} {placed : List Placed} {ds : List Char}

theorem Separate.endsName (h : Separate a b) (ha : a.word.isName = true) (ds : List Char) :
    EndsName (b.chars ++ ds) := by
  rw [Placed.chars, List.append_assoc]
  cases hgap : b.gap with
  | nil =>
    have hb : b.word.isName = false := Bool.eq_false_iff.mpr fun hb => h ha hb hgap
    exact Word.endsName hb ds
  | cons f gap =>
    rw [List.flatMap_cons, List.append_assoc]
    exact f.endsName _

theorem spells (h : p.word.isName = true → EndsName ds) : Spells p.chars [p.word.kind] ds :=
  (spells_gap p.gap _).append (spells_word p.word h)

/-- The tokens of a text are the words that are written in it. -/
theorem spells_flatMap (hseparate : placed.IsChain Separate)
    (hlast : ∀ p ∈ placed.getLast?, p.word.isName = true → EndsName ds) :
    Spells (placed.flatMap Placed.chars) (placed.map fun p => p.word.kind) ds := by
  induction placed with
  | nil => exact Spells.nil ds
  | cons p rest ih =>
    cases rest with
    | nil => simpa using (spells (hlast p rfl)).append (Spells.nil ds)
    | cons q rest =>
      obtain ⟨hnext, hrest⟩ := List.isChain_cons_cons.mp hseparate
      have hp : p.word.isName = true → EndsName ((q :: rest).flatMap Placed.chars ++ ds) := by
        intro hname
        rw [List.flatMap_cons, List.append_assoc]
        exact hnext.endsName hname _
      rw [List.getLast?_cons_cons] at hlast
      exact (spells hp).append (ih hrest hlast)

end Placed

namespace Layout

variable {words : List Word}

/-- The tokens of a text are the words that it is laid out from. -/
theorem spells (layout : Layout words) {ds : List Char}
    (hlast : ∀ w ∈ words.getLast?, w.isName = true → EndsName ds) :
    Spells layout.chars (words.map Word.kind) ds := by
  obtain ⟨placed, rfl, hseparate⟩ := layout
  rw [List.map_map]
  refine Placed.spells_flatMap hseparate fun p hp => hlast p.word ?_
  rw [List.getLast?_map, Option.mem_def.mp hp]
  rfl

/-- The words with a space before each. -/
instance : Inhabited (Layout words) where
  default :=
    { placed := words.map fun w => ⟨[.blank ' ' (by decide)], w⟩
      words_eq := by
        rw [List.map_map]
        exact List.map_id words
      separate := by
        refine (List.isChain_map _).mpr (List.Pairwise.isChain ?_)
        exact List.pairwise_of_forall fun _ _ _ _ => List.cons_ne_nil _ _ }

end Layout

end GoBuildRules
