import GoBuildRules.Text.Blank

/-!
# Quoted words

Text is cut into words at blanks. Inside single or double quotes a blank does not end a word, and a
backslash takes any next character as it is, inside quotes and outside. The quotes and the
backslashes are not part of the words; a pair of quotes makes a word even when nothing is in it.
-/

namespace GoBuildRules.Words

/-- Why a text is not a list of words. -/
inductive QuoteError where
  | unclosedQuote
  | unfinishedEscape
  deriving DecidableEq, Repr

/-- The text of a quote error. -/
def QuoteError.message : QuoteError → String
  | unclosedQuote => "unclosed quote"
  | unfinishedEscape => "unfinished escaping"

/-- The word that has begun, if one has, after one more character. -/
def extend (word : Option (List Char)) (c : Char) : Option (List Char) :=
  some (word.getD [] ++ [c])

/-- The words of the rest of a text, where `quote` is the quote that is open, if one is, and `word`
is the word that has begun, if one has. -/
def scan (quote : Option Char) (word : Option (List Char)) :
    List Char → Except QuoteError (List (List Char))
  | [] => if quote.isSome then .error .unclosedQuote else .ok word.toList
  | ['\\'] => if quote.isSome then .error .unclosedQuote else .error .unfinishedEscape
  | '\\' :: c :: rest => scan quote (extend word c) rest
  | c :: rest =>
    match quote with
    | some opened => if c = opened then scan none word rest else scan quote (extend word c) rest
    | none =>
      if c = '"' ∨ c = '\'' then scan (some c) (some (word.getD [])) rest
      else if Text.isBlank c then (scan none none rest).map (word.toList ++ ·)
      else scan none (extend word c) rest

/-- The words of a text. -/
def split (s : String) : Except QuoteError (List String) :=
  (scan none none s.toList).map fun words => words.map String.ofList

end GoBuildRules.Words
