import GoBuildRules.Text.Quoted
import GoBuildRules.Text.Utf8

/-!
# Paths

A path is bytes, which need not be UTF-8. It keeps its spelling, and means the list of its
components (`Path.components`): repeated and trailing slashes, and every `.` but one that starts a
relative path, leave no trace there. Two paths name the same place when their components agree,
so the parent, the file name and the part below a base are functions of the components, while
`Path.join` works on the spelling.

Where a path or a name is shown as a text, U+FFFD stands for what is not UTF-8 (`Path.text`,
`Path.fileName?`), so two names can read alike. Only `Path.quoted` shows all bytes.
-/

namespace GoBuildRules

namespace Path

/-- The byte between the steps of a path. -/
def slash : UInt8 := 0x2f

/-- The byte that a `.` is made of. -/
def dot : UInt8 := 0x2e

end Path

/-- One step of a path. -/
inductive Component where
  /-- The slash that starts an absolute path. -/
  | root
  /-- The `.` that starts a relative path. -/
  | here
  /-- A `..`. It is kept: no step before it is taken back. -/
  | up
  | name (spelling : List UInt8)
  deriving DecidableEq, Repr

namespace Component

open GoBuildRules.Path (slash dot)

/-- The spelling of a step. -/
def bytes : Component → List UInt8
  | root => [slash]
  | here => [dot]
  | up => [dot, dot]
  | name spelling => spelling

/-- The step as a text. -/
def text (c : Component) : String :=
  Utf8.lossyText c.bytes

/-- The place of the kind of step in the order of steps. -/
def rank : Component → Nat
  | root => 0
  | here => 1
  | up => 2
  | name _ => 3

/-- Steps are ordered by kind, and names by their bytes. -/
instance : LT Component :=
  ⟨fun a b => a.rank < b.rank ∨ a.rank = b.rank ∧ a.bytes < b.bytes⟩

instance (a b : Component) : Decidable (a < b) :=
  inferInstanceAs (Decidable (a.rank < b.rank ∨ a.rank = b.rank ∧ a.bytes < b.bytes))

/-- The step that the bytes between two slashes stand for; none for no bytes and for `.`. -/
def ofSegment? (segment : List UInt8) : Option Component :=
  if segment = [] ∨ segment = [dot] then none
  else if segment = [dot, dot] then some up
  else some (name segment)

end Component

/-- A path as it is spelled. -/
structure Path where
  bytes : List UInt8
  deriving DecidableEq, Repr, Inhabited

namespace Path

/-- The path that is spelled by a text. -/
def ofText (s : String) : Path :=
  ⟨Utf8.encode s⟩

/-- The path as a text. -/
def text (p : Path) : String :=
  Utf8.lossyText p.bytes

/-- A byte as `\x` and its two upper-case hexadecimal digits. -/
def escapeByte (b : UInt8) : List Char :=
  ['\\', 'x', (Nat.digitChar (b.toNat / 16)).toUpper, (Nat.digitChar (b.toNat % 16)).toUpper]

/-- A piece of a path between double quotes. -/
def escapePiece : Utf8.Piece → List Char
  | .char c => Text.escape '"' c
  | .fault bytes => bytes.flatMap escapeByte

/-- The path between double quotes. -/
def quoted (p : Path) : String :=
  String.ofList (['"'] ++ (Utf8.decode p.bytes).flatMap escapePiece ++ ['"'])

/-- The step that a spelling has for its start: the root, or the `.` of a relative path. -/
def startOf (bytes : List UInt8) : List Component :=
  if bytes.head? = some slash then [.root]
  else if (bytes.splitOn slash).head? = some [dot] then [.here]
  else []

/-- The steps that the segments of a spelling stand for. -/
def stepsOf (bytes : List UInt8) : List Component :=
  (bytes.splitOn slash).filterMap Component.ofSegment?

/-- The steps of a path, in order. -/
def components (p : Path) : List Component :=
  startOf p.bytes ++ stepsOf p.bytes

/-- Whether the path starts at the root. -/
def isAbsolute (p : Path) : Bool :=
  p.bytes.head? = some slash

/-- The path `q` taken from `p`: `q` itself when it is absolute, and else the two spellings with a
slash between them where one is missing. -/
def join (p q : Path) : Path :=
  if q.isAbsolute then q
  else if p.bytes = [] ∨ p.bytes.getLast? = some slash then ⟨p.bytes ++ q.bytes⟩
  else ⟨p.bytes ++ slash :: q.bytes⟩

/-- The components of the parent; an empty path and a root have none. -/
def parent? (components : List Component) : Option (List Component) :=
  match components.getLast? with
  | none => none
  | some .root => none
  | some _ => some components.dropLast

/-- The last component as a text, when it is a name. -/
def fileName? (p : Path) : Option String :=
  match p.components.getLast? with
  | some (.name spelling) => some (Utf8.lossyText spelling)
  | _ => none

/-- The spellings of the paths that `steps` lead through from `start`. -/
def along (start : Path) : List Component → List Path
  | [] => []
  | step :: steps =>
    let next := start.join ⟨step.bytes⟩
    next :: along next steps

/-- The proper ancestors of a path, from the top down, spelled by their components. -/
def ancestors (p : Path) : List Path :=
  along ⟨[]⟩ ((parent? p.components).getD [])

/-- The components of `p` below `base`; all of them when `p` is not below it. -/
def componentsBelow (base p : Path) : List Component :=
  if base.components.isPrefixOf p.components then p.components.drop base.components.length
  else p.components

/-- The part of `p` below `base`, or the whole of `p` without its first slash when `p` is not
below `base`. -/
def relativeTo (base p : Path) : String :=
  "/".intercalate (((componentsBelow base p).map Component.text).filter fun text => text != "/")

end Path

end GoBuildRules
