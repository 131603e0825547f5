import GoBuildRules.Platform
import GoBuildRules.Text.Blank
import GoBuildRules.Text.Lines
import GoBuildRules.Text.Split

/-!
# Build lines

A build line is the expression after `// +build` in a comment at the top of a file. It is a list of
alternatives between blanks, an alternative is a list of factors between commas, and a factor is a
tag that must hold or, after a `!`, must not hold. A factor that starts with `!!` spoils the whole
line. A release tag such as `go1.8` always counts as satisfied, negated or not.

`BuildLine.read` finds the build lines of a file, `BuildLine.holds` evaluates one.
-/

namespace GoBuildRules.BuildLine

/-- One condition of a build line. -/
structure Factor where
  negated : Bool
  tag : String
  deriving DecidableEq, Repr

/-- Whether `tag` names the least release that a file needs: `go`, one digit, a dot, digits. -/
def isReleaseTag (tag : String) : Bool :=
  match tag.toList with
  | 'g' :: 'o' :: major :: '.' :: minor =>
    major.isDigit && !minor.isEmpty && minor.all Char.isDigit
  | _ => false

namespace Factor

/-- The factor that the text between two commas stands for; none when it starts with `!!`. -/
def parse? : List Char → Option Factor
  | '!' :: '!' :: _ => none
  | '!' :: tag => some ⟨true, String.ofList tag⟩
  | tag => some ⟨false, String.ofList tag⟩

/-- Whether the factor holds where exactly the tags of the set do. -/
def holds (tags : TagSet) (factor : Factor) : Bool :=
  isReleaseTag factor.tag || factor.negated != tags.contains factor.tag

end Factor

/-- The alternatives of a line, each as its factors; none when a factor starts with `!!`. -/
def parse? (line : String) : Option (List (List Factor)) :=
  (Text.fields line.toList).mapM fun group => (group.splitOn ',').mapM Factor.parse?

/-- Whether the line holds where exactly the tags of the set do: some alternative has only factors
that hold. -/
def holds (line : String) (tags : TagSet) : Bool :=
  match parse? line with
  | none => false
  | some groups => groups.any fun factors => factors.all (Factor.holds tags)

/-- The expression of a trimmed line that is a build line. -/
def ofLine? (line : List Char) : Option String :=
  match Text.after? ['/', '/'] line with
  | none => none
  | some comment =>
    match Text.fields comment with
    | [] => none
    | marker :: expression =>
      if marker = "+build".toList then
        some (" ".intercalate (expression.map String.ofList))
      else none

/-- Whether a trimmed line belongs to the comments at the top of a file. -/
def isLeading (line : List Char) : Bool :=
  line.isEmpty || ['/', '/'].isPrefixOf line

/-- The build lines of a file: those of the leading run of blank lines and `//` comments that some
blank line of the run follows. Each is given with single spaces between its fields. -/
def read (content : String) : List String :=
  let leading := ((Text.lines content.toList).map Text.trim).takeWhile isLeading
  let effective := (leading.reverse.dropWhile fun line => !line.isEmpty).reverse
  effective.filterMap ofLine?

end GoBuildRules.BuildLine
