import GoBuildRules.Text.Split

/-!
# The source directory in flags

A flag may refer to the directory of its file by `${SRCDIR}`. Expanding the flag puts the directory
there, and the result is safe to hand to a compiler as a single argument when it is not empty and
every character of it is safe: outside the directory the letters, digits and marks of
`safeCharacters` and everything beyond ASCII, and in the directory also the space.
-/

namespace GoBuildRules.SourceDir

/-- What stands for the directory. -/
def marker : List Char :=
  "$\x7bSRCDIR\x7d".toList

/-- The characters of ASCII that a flag may hold. -/
def safeCharacters : List Char :=
  "+-.,/0123456789=ABCDEFGHIJKLMNOPQRSTUVWXYZ_abcdefghijklmnopqrstuvwxyz:$@%".toList

/-- Whether a flag may hold the character. -/
def isSafe (c : Char) : Bool :=
  decide (128 ≤ c.toNat) || safeCharacters.contains c

/-- A flag after its expansion, and whether it is safe as a single argument. -/
structure Expansion where
  text : String
  safe : Bool
  deriving DecidableEq, Repr

/-- The directory as flags show it: an empty one is the current directory. -/
def shown (dir : String) : List Char :=
  if dir.isEmpty then ['.'] else dir.toList

/-- Puts the directory in place of every marker of the flag. -/
def expand (flag dir : String) : Expansion :=
  match Text.chunks marker flag.toList with
  | [whole] => ⟨flag, !whole.isEmpty && whole.all isSafe⟩
  | chunks =>
    let dir := shown dir
    let text := dir.intercalate chunks
    { text := String.ofList text
      safe := chunks.all (fun chunk => chunk.all isSafe) &&
        dir.all (fun c => isSafe c || c == ' ') && !text.isEmpty }

end GoBuildRules.SourceDir
