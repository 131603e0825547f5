import Mathlib.Data.List.Basic
import GoBuildRules.Proofs.Cgo.Words

/-!
# Ways to quote words

A word can be written in many ways (`Segment`): its characters stand as they are, after backslashes,
or between quotes, and the ways may change within the word. A rendering (`Rendering`) is a text of
such words with blanks between them.

* `scan_rendering`: the words of a rendering are those that it was made from, and an error says in
  which way the text is cut off after it (`Rest`).
* `exists_rendering`: every text is a rendering that is complete or cut off.
* `split_renderings`: so splitting inverts every way of quoting, and each error has its one cause.
-/

namespace GoBuildRules.Words

/-! ## Renderings -/

/-- One of the two quotes. -/
inductive Quote where
  | single
  | double
  deriving DecidableEq, Repr

/-- The quote as it is written. -/
def Quote.char : Quote → Char
  | single => '\''
  | double => '"'

/-- A character between quotes. -/
inductive Inner (quote : Quote) where
  | plain (c : Char) (hquote : c ≠ quote.char) (hbackslash : c ≠ '\\')
  | escaped (c : Char)

namespace Inner

variable {quote : Quote}

/-- The character as it is written. -/
def chars : Inner quote → List Char
  | plain c _ _ => [c]
  | escaped c => ['\\', c]

/-- The character that is meant. -/
def char : Inner quote → Char
  | plain c _ _ => c
  | escaped c => c

end Inner

/-- A part of a word. -/
inductive Segment where
  | bare (c : Char) (h : IsPlain c)
  | escaped (c : Char)
  | quoted (quote : Quote) (run : List (Inner quote))

namespace Segment

/-- The part as it is written. -/
def chars : Segment → List Char
  | bare c _ => [c]
  | escaped c => ['\\', c]
  | quoted quote run => quote.char :: (run.flatMap Inner.chars ++ [quote.char])

/-- The text that is meant. -/
def text : Segment → List Char
  | bare c _ => [c]
  | escaped c => [c]
  | quoted _ run => run.map Inner.char

theorem chars_ne_nil (s : Segment) : s.chars ≠ [] := by
  cases s <;> exact List.cons_ne_nil _ _

end Segment

/-- A word with the blanks before it. -/
structure RenderedWord where
  gap : List Char
  blank : ∀ c ∈ gap, Text.isBlank c = true
  segments : List Segment
  ne_nil : segments ≠ []

namespace RenderedWord

/-- The word as it is written, with the blanks before it. -/
def chars (w : RenderedWord) : List Char :=
  w.gap ++ w.segments.flatMap Segment.chars

/-- The word that is meant. -/
def text (w : RenderedWord) : List Char :=
  w.segments.flatMap Segment.text

end RenderedWord

/-- A way to write words: blanks stand before each but the first, and they may stand before the
first and after the last. -/
structure Rendering where
  words : List RenderedWord
  apart : ∀ w ∈ words.tail, w.gap ≠ []
  trailing : List Char
  blank : ∀ c ∈ trailing, Text.isBlank c = true

namespace Rendering

/-- The text that is written. -/
def chars (r : Rendering) : List Char :=
  r.words.flatMap RenderedWord.chars ++ r.trailing

/-- The words that are meant. -/
def texts (r : Rendering) : List (List Char) :=
  r.words.map RenderedWord.text

end Rendering

/-- A quote that is not closed before the text ends, which may be after a backslash. -/
structure OpenQuote where
  quote : Quote
  run : List (Inner quote)
  dangling : Bool

/-- The quote and what follows it, as it is written. -/
def OpenQuote.chars (o : OpenQuote) : List Char :=
  o.quote.char :: (o.run.flatMap Inner.chars ++ if o.dangling then ['\\'] else [])

/-- What follows a rendering at the end of a text. -/
inductive Rest where
  | nothing
  | backslash
  | openQuote (o : OpenQuote)

namespace Rest

/-- The rest as it is written. -/
def chars : Rest → List Char
  | nothing => []
  | backslash => ['\\']
  | openQuote o => o.chars

/-- What becomes of the words before the rest. -/
def result (words : List (List Char)) : Rest → Except QuoteError (List (List Char))
  | nothing => .ok words
  | backslash => .error .unfinishedEscape
  | openQuote _ => .error .unclosedQuote

theorem map_result (before words : List (List Char)) (rest : Rest) :
    (rest.result words).map (before ++ ·) = rest.result (before ++ words) := by
  cases rest <;> rfl

end Rest

/-! ## Scanning a rendering -/

section Scan

variable {quote : Quote} {word : Option (List Char)} {cs : List Char}

theorem scan_open (quote : Quote) (word : Option (List Char)) (cs : List Char) :
    scan none word (quote.char :: cs) = scan (some quote.char) (some (word.getD [])) cs := by
  cases quote <;> simp [Quote.char, scan]

theorem scan_close (quote : Quote) (word : Option (List Char)) (cs : List Char) :
    scan (some quote.char) word (quote.char :: cs) = scan none word cs := by
  cases quote <;> simp [Quote.char, scan]

/-- A character between quotes goes to the word. -/
theorem scan_inner (i : Inner quote) (word : Option (List Char)) (cs : List Char) :
    scan (some quote.char) word (i.chars ++ cs) =
      scan (some quote.char) (some (word.getD [] ++ [i.char])) cs := by
  cases i with
  | plain c hquote hbackslash =>
    rw [Inner.chars, List.singleton_append, scan]
    · simp only [if_neg hquote]
      rfl
    · exact fun heq => absurd heq hbackslash
    · exact fun _ _ heq => absurd heq hbackslash
  | escaped c => rfl

theorem scan_inners (run : List (Inner quote)) (word cs : List Char) :
    scan (some quote.char) (some word) (run.flatMap Inner.chars ++ cs) =
      scan (some quote.char) (some (word ++ run.map Inner.char)) cs := by
  induction run generalizing word with
  | nil => simp
  | cons i run ih =>
    rw [List.flatMap_cons, List.append_assoc, scan_inner, Option.getD_some, ih, List.map_cons,
      List.append_assoc, List.singleton_append]

/-- A part of a word begins the word or goes to it. -/
theorem scan_segment (s : Segment) (word : Option (List Char)) (cs : List Char) :
    scan none word (s.chars ++ cs) = scan none (some (word.getD [] ++ s.text)) cs := by
  cases s with
  | bare c h =>
    have hscan : scan none word (c :: cs) = scan none (extend word c) cs := by
      rw [scan_cons h.1 h.2.1 h.2.2.1, h.2.2.2, if_neg Bool.false_ne_true]
    exact hscan
  | escaped c => rfl
  | quoted quote run =>
    simp only [Segment.chars, List.cons_append, List.append_assoc, scan_open, scan_inners,
      List.nil_append, scan_close]
    rfl

theorem scan_segments {segments : List Segment} (hne : segments ≠ [])
    (word : Option (List Char)) (cs : List Char) :
    scan none word (segments.flatMap Segment.chars ++ cs) =
      scan none (some (word.getD [] ++ segments.flatMap Segment.text)) cs := by
  induction segments generalizing word with
  | nil => exact absurd rfl hne
  | cons s segments ih =>
    rw [List.flatMap_cons, List.append_assoc, scan_segment]
    by_cases hnil : segments = []
    · subst hnil
      simp
    · rw [ih hnil, Option.getD_some, List.flatMap_cons, List.append_assoc]

/-- At the end of a text the word that has begun is the last. -/
theorem scan_rest (rest : Rest) (word : Option (List Char)) :
    scan none word rest.chars = rest.result word.toList := by
  cases rest with
  | nothing => rfl
  | backslash => rfl
  | openQuote o =>
    obtain ⟨quote, run, dangling⟩ := o
    rw [Rest.chars, OpenQuote.chars, scan_open, scan_inners]
    cases dangling <;> rfl

/-- Blanks end the word that has begun, and are passed over otherwise. -/
theorem scan_gap {gap : List Char} (hblank : ∀ c ∈ gap, Text.isBlank c = true)
    (hgap : gap ≠ []) (word : List Char) (cs : List Char) :
    scan none (some word) (gap ++ cs) = (scan none none cs).map (word :: ·) := by
  obtain ⟨b, gap, rfl⟩ := List.exists_cons_of_ne_nil hgap
  rw [List.cons_append, scan_blank (hblank b List.mem_cons_self),
    scan_blanks fun c hc => hblank c (List.mem_cons_of_mem _ hc)]
  rfl

/-- After a word that has begun, further words and blanks are scanned as they were written. -/
theorem scan_words (words : List RenderedWord) (hwords : ∀ w ∈ words, w.gap ≠ [])
    {trailing : List Char} (htrailing : ∀ c ∈ trailing, Text.isBlank c = true) (rest : Rest)
    (word : List Char) :
    scan none (some word) (words.flatMap RenderedWord.chars ++ (trailing ++ rest.chars)) =
      rest.result (word :: words.map RenderedWord.text) := by
  induction words generalizing word with
  | nil =>
    rw [List.flatMap_nil, List.nil_append]
    by_cases hnil : trailing = []
    · rw [hnil, List.nil_append, scan_rest]
      rfl
    · rw [scan_gap htrailing hnil, scan_rest]
      exact rest.map_result [word] []
  | cons w words ih =>
    have hlater := ih (fun v hv => hwords v (List.mem_cons_of_mem _ hv)) w.text
    rw [List.flatMap_cons, RenderedWord.chars, List.append_assoc, List.append_assoc,
      scan_gap w.blank (hwords w List.mem_cons_self), scan_segments w.ne_nil]
    exact (congrArg (Except.map (word :: ·)) hlater).trans (rest.map_result [word] _)

/-- The words of a rendering are those that it was made from, unless the text is cut off. -/
theorem scan_rendering (r : Rendering) (rest : Rest) :
    scan none none (r.chars ++ rest.chars) = rest.result r.texts := by
  obtain ⟨words, apart, trailing, blank⟩ := r
  rw [Rendering.chars, List.append_assoc]
  cases words with
  | nil =>
    rw [List.flatMap_nil, List.nil_append, scan_blanks blank, scan_rest]
    rfl
  | cons w words =>
    have hlater := scan_words words apart blank rest w.text
    rw [List.flatMap_cons, RenderedWord.chars, List.append_assoc, List.append_assoc,
      scan_blanks w.blank, scan_segments w.ne_nil]
    exact hlater

end Scan

/-! ## Every text is a rendering -/

namespace Rendering

/-- A blank before a rendering. -/
theorem exists_cons_blank {c : Char} (hc : Text.isBlank c = true) (r : Rendering) :
    ∃ r' : Rendering, r'.chars = c :: r.chars := by
  obtain ⟨words, apart, trailing, blank⟩ := r
  cases words with
  | nil => exact ⟨⟨[], nofun, c :: trailing, List.forall_mem_cons.mpr ⟨hc, blank⟩⟩, rfl⟩
  | cons w words =>
    let first : RenderedWord :=
      { w with gap := c :: w.gap, blank := List.forall_mem_cons.mpr ⟨hc, w.blank⟩ }
    exact ⟨⟨first :: words, apart, trailing, blank⟩, rfl⟩

/-- A part of a word before a rendering, which belongs to the first word unless blanks follow. -/
theorem exists_append_segment (s : Segment) (r : Rendering) :
    ∃ r' : Rendering, r'.chars = s.chars ++ r.chars := by
  obtain ⟨words, apart, trailing, blank⟩ := r
  let alone : RenderedWord := ⟨[], nofun, [s], List.cons_ne_nil _ _⟩
  cases words with
  | nil =>
    refine ⟨⟨[alone], nofun, trailing, blank⟩, ?_⟩
    simp [chars, RenderedWord.chars, alone]
  | cons w words =>
    by_cases hgap : w.gap = []
    · let first : RenderedWord := ⟨[], nofun, s :: w.segments, List.cons_ne_nil _ _⟩
      refine ⟨⟨first :: words, apart, trailing, blank⟩, ?_⟩
      simp [chars, RenderedWord.chars, first, hgap]
    · refine ⟨⟨alone :: w :: words, List.forall_mem_cons.mpr ⟨hgap, apart⟩, trailing, blank⟩, ?_⟩
      simp [chars, RenderedWord.chars, alone]

end Rendering

/-- After a quote there are characters up to the end of the text, to a backslash there, or to the
quote that closes. -/
theorem exists_run (quote : Quote) (cs : List Char) :
    ∃ (run : List (Inner quote)) (tail : List Char), cs = run.flatMap Inner.chars ++ tail ∧
      (tail = [] ∨ tail = ['\\'] ∨ ∃ rest, tail = quote.char :: rest) := by
  match cs with
  | [] => exact ⟨[], [], rfl, .inl rfl⟩
  | c :: cs =>
    by_cases hclose : c = quote.char
    · exact ⟨[], c :: cs, rfl, .inr (.inr ⟨cs, by rw [hclose]⟩)⟩
    · by_cases hbackslash : c = '\\'
      · subst hbackslash
        match cs with
        | [] => exact ⟨[], ['\\'], rfl, .inr (.inl rfl)⟩
        | d :: cs =>
          obtain ⟨run, tail, hcs, htail⟩ := exists_run quote cs
          exact ⟨.escaped d :: run, tail, by rw [hcs]; rfl, htail⟩
      · obtain ⟨run, tail, hcs, htail⟩ := exists_run quote cs
        exact ⟨.plain c hclose hbackslash :: run, tail, by rw [hcs]; rfl, htail⟩

/-- A text that is not cut off at once starts with a blank or with a part of a word. -/
theorem exists_segment {cs : List Char} (hblank : ∀ c ∈ cs.head?, Text.isBlank c = false) :
    (∃ rest : Rest, cs = rest.chars) ∨ ∃ (s : Segment) (later : List Char),
      cs = s.chars ++ later := by
  have hquoted : ∀ (quote : Quote) (cs : List Char),
      (∃ rest : Rest, quote.char :: cs = rest.chars) ∨
        ∃ (s : Segment) (later : List Char), quote.char :: cs = s.chars ++ later := by
    intro quote cs
    obtain ⟨run, tail, rfl, rfl | rfl | ⟨later, rfl⟩⟩ := exists_run quote cs
    · exact .inl ⟨.openQuote ⟨quote, run, false⟩, rfl⟩
    · exact .inl ⟨.openQuote ⟨quote, run, true⟩, rfl⟩
    · exact .inr ⟨.quoted quote run, later, by simp [Segment.chars]⟩
  -- Only a text that ends after a backslash or in an open quote has no part of a word here.
  match cs with
  | [] => exact .inl ⟨.nothing, rfl⟩
  | c :: cs =>
    by_cases hbackslash : c = '\\'
    · subst hbackslash
      match cs with
      | [] => exact .inl ⟨.backslash, rfl⟩
      | d :: later => exact .inr ⟨.escaped d, later, rfl⟩
    · by_cases hdouble : c = '"'
      · exact hdouble ▸ hquoted .double cs
      · by_cases hsingle : c = '\''
        · exact hsingle ▸ hquoted .single cs
        · exact .inr ⟨.bare c ⟨hbackslash, hdouble, hsingle, hblank c rfl⟩, cs, rfl⟩

/-- Every text is a rendering that is complete or cut off. -/
theorem exists_rendering (cs : List Char) :
    ∃ (r : Rendering) (rest : Rest), cs = r.chars ++ rest.chars := by
  -- A blank goes in front of the rendering of the rest, and so does a part of a word.
  by_cases hblank : ∀ c ∈ cs.head?, Text.isBlank c = false
  · rcases exists_segment hblank with ⟨rest, rfl⟩ | ⟨s, later, rfl⟩
    · exact ⟨⟨[], nofun, [], nofun⟩, rest, rfl⟩
    · have hshorter : later.length < (s.chars ++ later).length := by
        have := List.length_pos_iff.mpr s.chars_ne_nil
        rw [List.length_append]
        omega
      obtain ⟨r, rest, hlater⟩ := exists_rendering later
      obtain ⟨r', hr'⟩ := r.exists_append_segment s
      exact ⟨r', rest, by rw [hr', List.append_assoc, ← hlater]⟩
  · match cs with
    | [] => exact absurd nofun hblank
    | c :: later =>
      have hc : Text.isBlank c = true := by simpa using hblank
      obtain ⟨r, rest, hlater⟩ := exists_rendering later
      obtain ⟨r', hr'⟩ := r.exists_cons_blank hc
      exact ⟨r', rest, by rw [hr', hlater]; rfl⟩
termination_by cs.length

/-! ## Splitting -/

/-- What splitting gives depends on how the text is cut off after a rendering. -/
theorem split_rendering {s : String} {r : Rendering} {rest : Rest}
    (h : s.toList = r.chars ++ rest.chars) :
    split s = (rest.result r.texts).map fun words => words.map String.ofList := by
  rw [split, h, scan_rendering]

theorem split_eq_iff {s : String} {result : Except QuoteError (List String)} :
    split s = result ↔ ∃ (r : Rendering) (rest : Rest), s.toList = r.chars ++ rest.chars ∧
      (rest.result r.texts).map (fun words => words.map String.ofList) = result := by
  constructor
  · intro h
    obtain ⟨r, rest, hs⟩ := exists_rendering s.toList
    exact ⟨r, rest, hs, (split_rendering hs).symm.trans h⟩
  · rintro ⟨r, rest, hs, h⟩
    exact (split_rendering hs).trans h

theorem split_eq_ok_iff {s : String} {words : List String} :
    split s = .ok words ↔
      ∃ r : Rendering, s.toList = r.chars ∧ words = r.texts.map String.ofList := by
  rw [split_eq_iff]
  constructor
  · rintro ⟨r, rest, hs, h⟩
    cases rest with
    | nothing => exact ⟨r, hs.trans (List.append_nil _), (Except.ok.inj h).symm⟩
    | backslash => cases h
    | openQuote o => cases h
  · rintro ⟨r, hs, rfl⟩
    exact ⟨r, .nothing, hs.trans (List.append_nil _).symm, rfl⟩

/-- **Splitting inverts every way of quoting.** The words of a text are those of the rendering that
it is. A text that is no rendering ends in a quote that is not closed, or after a backslash outside
quotes, and the error says which. -/
theorem split_renderings (s : String) :
    (∀ words, split s = .ok words ↔
      ∃ r : Rendering, s.toList = r.chars ∧ words = r.texts.map String.ofList) ∧
    (split s = .error .unclosedQuote ↔
      ∃ (r : Rendering) (o : OpenQuote), s.toList = r.chars ++ o.chars) ∧
    (split s = .error .unfinishedEscape ↔ ∃ r : Rendering, s.toList = r.chars ++ ['\\']) := by
  refine ⟨fun words => split_eq_ok_iff, ?_, ?_⟩
  · rw [split_eq_iff]
    constructor
    · rintro ⟨r, rest, hs, h⟩
      cases rest with
      | nothing => cases h
      | backslash => cases h
      | openQuote o => exact ⟨r, o, hs⟩
    · rintro ⟨r, o, hs⟩
      exact ⟨r, .openQuote o, hs, rfl⟩
  · rw [split_eq_iff]
    constructor
    · rintro ⟨r, rest, hs, h⟩
      cases rest with
      | nothing => cases h
      | backslash => exact ⟨r, hs⟩
      | openQuote o => cases h
    · rintro ⟨r, hs⟩
      exact ⟨r, .backslash, hs, rfl⟩

/-- Quotes within a word, an escaped quote and an empty word. -/
example : split " -D'A B'\\\"c \"\"\t" = .ok ["-DA B\"c", ""] := by decide

end GoBuildRules.Words
