import GoBuildRules.Proofs.Header.Lexing
import GoBuildRules.Proofs.Text.Cut

/-!
# Where tokens and comments stand in a text

A text is blanks, comments and tokens in some order (`Reads`), each of which stands on the line that
the line feeds above it count. The lines that go with the lexemes of a text are these lines
(`exists_reads`): a token has the line on which it starts, a comment those on which it starts and
ends, whatever line feeds stand in comments and in literals above it (`Scans.exists_chars`).

`Passes` says the same of the text between two places. The lexemes of a text end at a place that is
reached so (`exists_passes`), and each token on the way stands at one (`Passes.exists_entry`).
-/

namespace GoBuildRules

/-! ## Comments -/

/-- The lines of a comment without the comment marks. -/
def commentLines : List Char → List String
  | '/' :: '/' :: text => [String.ofList text]
  | '/' :: '*' :: body => (Text.lines (body.take (body.length - 2))).map String.ofList
  | _ => []

/-- The characters are a comment where `after` follows them: `//` and the rest of the line, or what
stands between `/*` and the first `*/` after it. -/
inductive IsComment : List Char → List Char → Prop
  | line {text after : List Char} (htext : '\n' ∉ text) (hafter : ∀ c ∈ after.head?, c = '\n') :
    IsComment ('/' :: '/' :: text) after
  | block {text : List Char} (after : List Char) (htext : ¬ ['*', '/'] <:+: text) :
    IsComment ('/' :: '*' :: (text ++ ['*', '/'])) after

/-- The characters are a token of the kind where `after` follows them. -/
def IsToken (kind : TokenKind) (chars after : List Char) : Prop :=
  ∃ c cs feeds, chars ++ after = c :: cs ∧ Text.isBlank c = false ∧
    Lexeme.scan c cs = .ok ⟨.token kind, feeds, after⟩

namespace Lexeme

variable {c : Char} {cs : List Char} {s : Scanned}

/-- What the characters of a lexeme are. -/
def Item.Spells (chars after : List Char) : Item → Prop
  | .comment lines => IsComment chars after ∧ commentLines chars = lines
  | .token kind => IsToken kind chars after

theorem feed_notMem_takeWhile {p : Char → Bool} (hp : p '\n' = false) (cs : List Char) :
    '\n' ∉ cs.takeWhile p := fun hmem => by
  rw [List.all_eq_true.mp List.all_takeWhile _ hmem] at hp
  cases hp

/-- The characters of a lexeme hold the line feeds that are counted with it. -/
theorem Scans.exists_chars (h : Scans c cs s) (hblank : Text.isBlank c = false) :
    ∃ chars, c :: cs = chars ++ s.rest ∧ Text.lineFeeds chars = s.feeds ∧
      s.item.Spells chars s.rest := by
  have hfeed : c ≠ '\n' := by
    rintro rfl
    exact absurd hblank (by decide)
  have hscan := scan_eq_ok_iff.mpr h
  have hnone : ∀ {ds : List Char}, '\n' ∉ ds → Text.lineFeeds (c :: ds) = 0 := fun hds =>
    Text.lineFeeds_eq_zero (List.not_mem_cons_of_ne_of_not_mem hfeed.symm hds)
  -- Only comments of several lines and raw literals can hold line feeds.
  cases h with
  | lineComment body =>
    have htext : '\n' ∉ body.takeWhile (· != '\n') := feed_notMem_takeWhile (by decide) body
    refine ⟨'/' :: '/' :: body.takeWhile (· != '\n'), by simp, ?_, .line htext ?_, rfl⟩
    · exact hnone (List.not_mem_cons_of_ne_of_not_mem (by decide) htext)
    · intro d hd
      have hhead := List.head?_dropWhile_not (· != '\n') body
      rw [Option.mem_def.mp hd] at hhead
      simpa using hhead
  | @blockComment body text rest hcut =>
    have hbody := Text.eq_append_of_cutAt hcut
    refine ⟨'/' :: '*' :: (text ++ ['*', '/']), ?_, ?_,
      .block rest (Text.not_infix_of_cutAt (List.cons_ne_nil _ _) hcut), ?_⟩
    · rw [hbody]
      rfl
    · have hopening : '\n' ∉ ['/', '*'] := by decide
      have hclosing : '\n' ∉ ['*', '/'] := by decide
      exact Text.lineFeeds_between hopening hclosing text
    · have hlength : (text ++ ['*', '/']).length - 2 = text.length := by simp
      rw [commentLines, hlength, List.take_left]
  | slash hline hblock =>
    exact ⟨['/'], rfl, hnone List.not_mem_nil, '/', cs, 0, rfl, hblank, hscan⟩
  | name cs hname =>
    refine ⟨c :: cs.takeWhile Text.continuesName, by simp,
      hnone (feed_notMem_takeWhile (by decide) cs), c, cs, 0, by simp, hblank, hscan⟩
  | quoted hread =>
    obtain ⟨body, rfl, hbody⟩ := Literal.read_eq_ok_iff.mp hread
    refine ⟨'"' :: (body ++ ['"']), by simp, hnone ?_, '"', _, 0, by simp, hblank, hscan⟩
    simpa using hbody.feed_notMem
  | @raw cs text rest hcut =>
    have hcs := Text.eq_append_of_cutAt hcut
    refine ⟨'\x60' :: (text ++ ['\x60']), by simp [hcs], ?_, '\x60', cs, _, by simp [hcs], hblank,
      hscan⟩
    have hquote : '\n' ∉ ['\x60'] := by decide
    exact Text.lineFeeds_between hquote hquote text
  | number cs hdigit hname =>
    exact ⟨c :: cs.takeWhile fun d => d.isAlphanum || d == '.', by simp,
      hnone (feed_notMem_takeWhile (by decide) cs), c, cs, 0, by simp, hblank, hscan⟩
  | mark cs hslash hname hquote hraw hdigit =>
    exact ⟨[c], rfl, hnone List.not_mem_nil, c, cs, 0, rfl, hblank, hscan⟩

end Lexeme

/-! ## Tokens and the comments before them -/

/-- A token or comment where it stands in a text. -/
structure Located where
  /-- The text before it. -/
  before : List Char
  chars : List Char

namespace Located

/-- The line on which it starts. -/
def first (p : Located) : Nat :=
  Text.lineFeeds p.before + 1

/-- The line on which it ends. -/
def last (p : Located) : Nat :=
  p.first + Text.lineFeeds p.chars

end Located

/-- A token of a text, the token before it, if there is one, and the comments between the two. -/
structure Entry where
  kind : TokenKind
  token : Located
  previous : Option Located
  comments : List Located

/-- What stands above a place in a text: all of the text before it, the last token there and the
comments since then. -/
structure Above where
  text : List Char
  token : Option Located
  comments : List Located

namespace Above

/-- Above the start of a text. -/
def start : Above where
  text := []
  token := none
  comments := []

/-- Above the place after a blank. -/
def blank (above : Above) (c : Char) : Above where
  text := above.text ++ [c]
  token := above.token
  comments := above.comments

/-- Above the place after a comment. -/
def comment (above : Above) (chars : List Char) : Above where
  text := above.text ++ chars
  token := above.token
  comments := above.comments ++ [⟨above.text, chars⟩]

/-- Above the place after a token. -/
def pass (above : Above) (chars : List Char) : Above where
  text := above.text ++ chars
  token := some ⟨above.text, chars⟩
  comments := []

/-- The token that stands at the place. -/
def entry (above : Above) (kind : TokenKind) (chars : List Char) : Entry where
  kind := kind
  token := ⟨above.text, chars⟩
  previous := above.token
  comments := above.comments

/-- The line of the place. -/
def line (above : Above) : Nat :=
  Text.lineFeeds above.text + 1

end Above

/-- A text at a place is blanks, comments and these tokens, up to some place in it. -/
inductive Reads : Above → List Char → List Entry → Prop
  | stop (above : Above) (cs : List Char) : Reads above cs []
  | blank {above : Above} {c : Char} {cs : List Char} {entries : List Entry}
      (hblank : Text.isBlank c = true) (h : Reads (above.blank c) cs entries) :
    Reads above (c :: cs) entries
  | comment {above : Above} {chars after : List Char} {entries : List Entry}
      (hcomment : IsComment chars after) (h : Reads (above.comment chars) after entries) :
    Reads above (chars ++ after) entries
  | token {above : Above} {kind : TokenKind} {chars after : List Char} {entries : List Entry}
      (htoken : IsToken kind chars after) (h : Reads (above.pass chars) after entries) :
    Reads above (chars ++ after) (above.entry kind chars :: entries)

/-- From one place to another one with `rest` after it, a text is blanks, comments and these
tokens. -/
inductive Passes (place : Above) (rest : List Char) : Above → List Char → List Entry → Prop
  | here : Passes place rest place rest []
  | blank {above : Above} {c : Char} {cs : List Char} {entries : List Entry}
      (hblank : Text.isBlank c = true) (h : Passes place rest (above.blank c) cs entries) :
    Passes place rest above (c :: cs) entries
  | comment {above : Above} {chars after : List Char} {entries : List Entry}
      (hcomment : IsComment chars after)
      (h : Passes place rest (above.comment chars) after entries) :
    Passes place rest above (chars ++ after) entries
  | token {above : Above} {kind : TokenKind} {chars after : List Char} {entries : List Entry}
      (htoken : IsToken kind chars after)
      (h : Passes place rest (above.pass chars) after entries) :
    Passes place rest above (chars ++ after) (above.entry kind chars :: entries)

namespace Passes

variable {place above : Above} {rest cs : List Char} {entries : List Entry}

theorem reads (h : Passes place rest above cs entries) : Reads above cs entries := by
  induction h with
  | here => exact .stop place rest
  | blank hblank _ ih => exact .blank hblank ih
  | comment hcomment _ ih => exact .comment hcomment ih
  | token htoken _ ih => exact .token htoken ih

theorem text_append (h : Passes place rest above cs entries) :
    place.text ++ rest = above.text ++ cs := by
  induction h with
  | here => rfl
  | blank _ _ ih => exact ih.trans (List.append_assoc _ _ _)
  | comment _ _ ih => exact ih.trans (List.append_assoc _ _ _)
  | token _ _ ih => exact ih.trans (List.append_assoc _ _ _)

/-- On the way each token is passed where it stands. -/
theorem exists_entry {es later : List Entry} {e : Entry}
    (h : Passes place rest above cs (es ++ e :: later)) :
    ∃ (mid : Above) (after : List Char), Passes mid (e.token.chars ++ after) above cs es ∧
      IsToken e.kind e.token.chars after ∧ e.token.before = mid.text := by
  obtain ⟨all, hall⟩ : ∃ all, es ++ e :: later = all := ⟨_, rfl⟩
  rw [hall] at h
  -- The induction is on the way through the text; the token is the first of the entries at one
  -- step.
  induction h generalizing es with
  | here => cases es <;> cases hall
  | blank hblank _ ih =>
    obtain ⟨mid, after, hpasses, htoken, hbefore⟩ := ih hall
    exact ⟨mid, after, .blank hblank hpasses, htoken, hbefore⟩
  | comment hcomment _ ih =>
    obtain ⟨mid, after, hpasses, htoken, hbefore⟩ := ih hall
    exact ⟨mid, after, .comment hcomment hpasses, htoken, hbefore⟩
  | @token above kind chars after entries htoken _ ih =>
    cases es with
    | nil =>
      obtain ⟨rfl, -⟩ := List.cons.inj hall
      exact ⟨above, after, .here, htoken, rfl⟩
    | cons first es =>
      obtain ⟨rfl, hrest⟩ := List.cons.inj hall
      obtain ⟨mid, tail, hpasses, hlast, hbefore⟩ := ih hrest
      exact ⟨mid, tail, .token htoken hpasses, hlast, hbefore⟩

end Passes

/-- Where the lexemes of a text end: at its end, or at a lexeme that is malformed. -/
inductive EndsAt (place : Above) : List Char → Ending → Prop
  | complete : EndsAt place [] (.complete place.line)
  | broken {c : Char} {cs : List Char} {fault : Lexeme.Fault} (hblank : Text.isBlank c = false)
      (hscan : Lexeme.scan c cs = .error fault) :
    EndsAt place (c :: cs) (.broken (fault.errorAt place.line))

/-- The comment with the lines on which it stands. -/
def Located.comment (p : Located) : Comment where
  first := p.first
  last := p.last
  lines := commentLines p.chars

/-- The comments since a token as one group, or as the last of several. -/
def CommentGroup.collect (previous : Nat) (comments : List Located) : Option CommentGroup :=
  comments.foldl (fun group p => some (extend previous p.comment group)) none

theorem CommentGroup.collect_append (previous : Nat) (comments : List Located) (p : Located) :
    collect previous (comments ++ [p]) =
      some (extend previous p.comment (collect previous comments)) := by
  rw [collect, List.foldl_append]
  rfl

/-- The line on which a token starts; no line where there is none. -/
def lineOf (token : Option Located) : Nat :=
  token.elim 0 Located.first

/-- The token with its line and its documentation. -/
def Entry.toToken (e : Entry) : Token where
  kind := e.kind
  line := e.token.first
  doc := (CommentGroup.collect (lineOf e.previous) e.comments).bind
    (CommentGroup.doc? e.token.first)

open Lexeme in
/-- The tokens of a text are read with the lines on which they and the comments before them stand,
up to the place where they end. -/
theorem exists_passes (above : Above) (cs : List Char) :
    ∃ (entries : List Entry) (place : Above) (rest : List Char),
      Passes place rest above cs entries ∧ EndsAt place rest (lex above.line cs).2 ∧
      Token.documented (lineOf above.token)
        (CommentGroup.collect (lineOf above.token) above.comments) (lex above.line cs).1 =
        entries.map Entry.toToken := by
  obtain ⟨line, hline⟩ : ∃ line, above.line = line := ⟨_, rfl⟩
  rw [hline]
  -- The line of the lexer is that of the place, and the group is collected from the comments there.
  fun_induction lex line cs generalizing above with
  | case1 line =>
    subst hline
    exact ⟨[], above, [], .here, .complete, rfl⟩
  | case2 line c cs hblank ih =>
    have hnext : (above.blank c).line = line + Text.lineFeeds [c] := by
      rw [← hline, Above.line, Above.line, Above.blank, Text.lineFeeds_append]
      exact Nat.add_right_comm _ _ _
    obtain ⟨entries, place, rest, hpasses, hends, hdocumented⟩ := ih (above.blank c) hnext
    exact ⟨entries, place, rest, .blank hblank hpasses, hends, hdocumented⟩
  | case3 line c cs hblank fault hscan =>
    subst hline
    exact ⟨[], above, c :: cs, .here, .broken (Bool.eq_false_iff.mpr hblank) hscan, rfl⟩
  | case4 line c cs hblank s hscan hle later =>
    rename_i ih
    rw [Bool.not_eq_true] at hblank
    obtain ⟨chars, heq, hfeeds, hspells⟩ := (scan_eq_ok_iff.mp hscan).exists_chars hblank
    obtain ⟨item, feeds, tail⟩ := s
    obtain rfl : Text.lineFeeds chars = feeds := hfeeds
    subst hline
    rw [heq]
    have hnext : Text.lineFeeds (above.text ++ chars) + 1 = above.line + Text.lineFeeds chars := by
      rw [Above.line, Text.lineFeeds_append]
      exact Nat.add_right_comm _ _ _
    cases item with
    | comment lines =>
      obtain ⟨hcomment, rfl⟩ := hspells
      obtain ⟨entries, place, rest, hpasses, hends, hdocumented⟩ := ih (above.comment chars) hnext
      refine ⟨entries, place, rest, .comment hcomment hpasses, hends, ?_⟩
      rw [Above.comment, CommentGroup.collect_append] at hdocumented
      exact hdocumented
    | token kind =>
      obtain ⟨entries, place, rest, hpasses, hends, hdocumented⟩ := ih (above.pass chars) hnext
      exact ⟨above.entry kind chars :: entries, place, rest, .token hspells hpasses, hends,
        congrArg ((above.entry kind chars).toToken :: ·) hdocumented⟩

/-- The tokens of a text are read with the lines on which they and the comments before them
stand. -/
theorem exists_reads (above : Above) (cs : List Char) :
    ∃ entries, Reads above cs entries ∧
      Token.documented (lineOf above.token)
        (CommentGroup.collect (lineOf above.token) above.comments)
        (Lexeme.lex above.line cs).1 = entries.map Entry.toToken := by
  obtain ⟨entries, place, rest, hpasses, -, hdocumented⟩ := exists_passes above cs
  exact ⟨entries, hpasses.reads, hdocumented⟩

end GoBuildRules
