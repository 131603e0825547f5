import GoBuildRules.Cgo.SourceDir
import GoBuildRules.Cgo.Words
import GoBuildRules.Text.Lines

/-!
# Cgo directives

The comment above `import "C"` may give flags for the compilers and the linker, one directive a
line:

```
#cgo linux,!arm CFLAGS: -DLINUX -I${SRCDIR}/include
#cgo LDFLAGS: -lm
```

Between `#cgo` and the verb a directive may hold a tag expression, on which its flags depend. Lines
that are no directives are skipped, and the first malformed directive is an error for the whole
comment. Of several faults in one directive a missing colon or verb is found first, then a
malformed argument, and an unknown verb last.
-/

namespace GoBuildRules

/-- Flags in one string, and the build line on which they depend; an empty one does not restrict
them. -/
structure TaggedOpt where
  tags : String
  opts : String
  deriving DecidableEq, Repr

/-- Whether the flags depend on tags. -/
def TaggedOpt.isTagged (opt : TaggedOpt) : Bool :=
  !opt.tags.isEmpty

/-- The flags that a comment gives to the compilers and to the linker. -/
structure CgoFlags where
  copts : List TaggedOpt := []
  clinkopts : List TaggedOpt := []
  deriving DecidableEq, Repr

/-- What is wrong with a directive, each with its line as it was written. -/
inductive DirectiveError where
  | invalidLine (line : String)
  | invalidVerb (line : String)
  | unsupportedVerb (verb line : String)
  | malformedArgument (line : String)
  deriving DecidableEq, Repr

/-- The text of a directive error. -/
def DirectiveError.message : DirectiveError → String
  | invalidLine line => "invalid #cgo line: " ++ line
  | invalidVerb line => "invalid #cgo verb: " ++ line
  | unsupportedVerb verb line => verb ++ " not supported: " ++ line
  | malformedArgument line => "malformed #cgo argument: " ++ line

namespace CgoFlags

/-- The flags of one comment and then those of another. -/
def append (a b : CgoFlags) : CgoFlags :=
  ⟨a.copts ++ b.copts, a.clinkopts ++ b.clinkopts⟩

/-- What follows `#cgo` in a line that is a directive, without the blanks at its ends. -/
def directive? (line : List Char) : Option (List Char) :=
  match Text.after? "#cgo".toList (Text.trim line) with
  | some (c :: rest) => if c = ' ' ∨ c = '\t' then some (Text.trim rest) else none
  | _ => none

/-- The tag expression and the verb before the colon. -/
def verb? (head : List Char) : Option (String × String) :=
  match (Text.fields head).map String.ofList |>.reverse with
  | [] => none
  | verb :: tags => some (" ".intercalate tags.reverse, verb)

/-- The arguments after the colon, expanded and joined by single spaces, if all are safe. -/
def arguments? (args : List Char) (dir : String) : Option String :=
  match Words.split (String.ofList (Text.trim args)) with
  | .error _ => none
  | .ok words =>
    let expanded := words.map fun word => SourceDir.expand word dir
    if expanded.all SourceDir.Expansion.safe then
      some (" ".intercalate (expanded.map SourceDir.Expansion.text))
    else none

/-- The flags that go with a verb. -/
def ofVerb (line verb : String) (opt : TaggedOpt) : Except DirectiveError CgoFlags :=
  if ["CFLAGS", "CPPFLAGS", "CXXFLAGS"].contains verb then .ok { copts := [opt] }
  else if verb = "LDFLAGS" then .ok { clinkopts := [opt] }
  else if verb = "pkg-config" then .error (.unsupportedVerb verb line)
  else .error (.invalidVerb line)

/-- The flags of one line: none when it is no directive. -/
def ofLine (dir : String) (line : List Char) : Except DirectiveError CgoFlags :=
  let shown := String.ofList line
  match directive? line with
  | none => .ok {}
  | some body =>
    match Text.cutAt [':'] body with
    | none => .error (.invalidLine shown)
    | some (head, args) =>
      match verb? head with
      | none => .error (.invalidLine shown)
      | some (tags, verb) =>
        match arguments? args dir with
        | none => .error (.malformedArgument shown)
        | some opts => ofVerb shown verb ⟨tags, opts⟩

/-- The flags that the directives of a comment give, in the directory `dir`. -/
def parse (comment dir : String) : Except DirectiveError CgoFlags := do
  let flags ← (Text.lines comment.toList).mapM (ofLine dir)
  return flags.foldr append {}

end CgoFlags

end GoBuildRules
