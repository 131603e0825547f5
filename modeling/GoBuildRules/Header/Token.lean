import GoBuildRules.Header.Lexeme

/-!
# Tokens with their documentation

Comments that follow each other without an empty line between them form a group. A group documents
the next token when it ends on the line directly above the token and does not start on the line of
the token before it.
-/

namespace GoBuildRules

/-- A token, the line on which it starts, and the text of the comments that document it. -/
structure Token where
  kind : TokenKind
  line : Nat
  doc : Option String
  deriving DecidableEq, Repr

/-- Comments that follow each other without an empty line between them. -/
structure CommentGroup where
  lines : List String
  /-- The line on which the last comment ends. -/
  last : Nat
  /-- Whether the first comment starts below the line of the token before the group. -/
  startsLine : Bool
  deriving DecidableEq, Repr

namespace CommentGroup

/-- The group of a single comment, where the token before it starts on `previous`. -/
def single (previous : Nat) (c : Comment) : CommentGroup :=
  ⟨c.lines, c.last, previous < c.first⟩

/-- The group after one more comment, which starts a new group when a line is empty before it. -/
def extend (previous : Nat) (c : Comment) : Option CommentGroup → CommentGroup
  | none => single previous c
  | some group =>
    if c.first ≤ group.last + 1 then
      { group with lines := group.lines ++ c.lines, last := c.last }
    else single previous c

/-- The documentation that the group gives to a token on the given line. -/
def doc? (line : Nat) (group : CommentGroup) : Option String :=
  if group.startsLine ∧ group.last + 1 = line then some ("\n".intercalate group.lines) else none

end CommentGroup

namespace Token

/-- The tokens among the lexemes, each with its documentation. The last token before the lexemes
starts on `previous`, and `group` holds the comments since then. -/
def documented (previous : Nat) (group : Option CommentGroup) : List Lexeme → List Token
  | [] => []
  | .comment c :: rest => documented previous (some (CommentGroup.extend previous c group)) rest
  | .token kind line :: rest =>
    ⟨kind, line, group.bind (CommentGroup.doc? line)⟩ :: documented line none rest

/-- The tokens of a source text, and how they end. -/
def ofSource (source : String) : List Token × Ending :=
  let (lexemes, ending) := Lexeme.lex 1 source.toList
  (documented 0 none lexemes, ending)

end Token

end GoBuildRules
