import GoBuildRules.Text.Quoted
import GoBuildRules.Text.Split

/-!
# Labels of imported packages

Every package has one library, and an import path leads to the label of such a library. A path
below the prefix of the repository is a package of the repository. Every other path lies in an
external repository that its first three components name.
-/

namespace GoBuildRules

/-- The label of the library of a package. -/
inductive Label where
  /-- In the package that the label is used in. -/
  | here
  /-- In another package of the same repository. -/
  | inRepository (package : String)
  /-- In a package of another repository. -/
  | external (repository package : String)
  deriving DecidableEq, Repr

/-- Why an import path has no label. -/
inductive ResolveError where
  | emptyComponent (path : String)
  | invalidCharacter (path : String) (c : Char)
  deriving DecidableEq, Repr

/-- The text of a resolve error. -/
def ResolveError.message : ResolveError → String
  | emptyComponent path =>
    "invalid import path " ++ Text.quoted path ++ ": empty path component"
  | invalidCharacter path c =>
    "invalid import path " ++ Text.quoted path ++ ": character " ++ Text.quotedChar c ++
      " not allowed"

namespace Label

/-- The name of the library of every package. -/
def libraryName : String := "go_default_library"

/-- The written form of a label. -/
def text : Label → String
  | here => ":" ++ libraryName
  | inRepository package => "//" ++ package ++ ":" ++ libraryName
  | external repository package =>
    "@" ++ repository ++ "//" ++ package ++ ":" ++ libraryName

/-- Whether an import path may hold the character. -/
def isAllowed (c : Char) : Bool :=
  c.isAlphanum || ['/', '.', '_', '~', '+', '-'].contains c

/-- What is wrong with an import path, if anything is. -/
def fault? (path : String) : Option ResolveError :=
  if (Text.splitAt '/' path).any String.isEmpty then some (.emptyComponent path)
  else (path.toList.find? fun c => !isAllowed c).map (.invalidCharacter path)

/-- The path of a local import from the repository root. -/
def localPath? (goPrefix path : String) : Option String :=
  if goPrefix.isEmpty then none
  else if path = goPrefix then some ""
  else Text.dropStart? (goPrefix ++ "/") path

/-- How many components of an import path name its repository. -/
def repositoryComponents : Nat := 3

/-- The name of the repository that the components name: the parts of the host from the last to the
first, then the other components, with `_` between them and for each `.` and `-`. -/
def repositoryName : List String → String
  | [] => ""
  | host :: rest =>
    let parts := (Text.splitAt '.' host).reverse ++ rest
    String.ofList <|
      ("_".intercalate parts).toList.map fun c => if c = '.' ∨ c = '-' then '_' else c

/-- The label of the library that an import path leads to, as seen from the package `fromRel`. -/
def resolve (goPrefix path fromRel : String) : Except ResolveError Label :=
  match fault? path with
  | some e => .error e
  | none =>
    match localPath? goPrefix path with
    | some rel => .ok (if rel = fromRel then here else inRepository rel)
    | none =>
      let components := Text.splitAt '/' path
      .ok <| external (repositoryName (components.take repositoryComponents))
        ("/".intercalate (components.drop repositoryComponents))

end Label

end GoBuildRules
