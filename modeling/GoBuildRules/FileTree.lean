import GoBuildRules.Path

/-!
# File trees

A file tree held in memory: what stands at which path. Paths that are not absolute are taken from
the root of the tree, and paths are compared by their components. An addition creates the missing
ancestors as directories and replaces whatever stood at the path itself; the spelling of a path is
that of the first addition.

No path stands in a tree twice (`FileTree.distinct`), and `FileTree.node?_place` says what an
addition changes.
-/

namespace GoBuildRules

/-- What stands at a path. -/
inductive Node where
  | directory
  | file (content : List UInt8)
  /-- A file that is listed but cannot be read. -/
  | lockedFile
  deriving DecidableEq, Repr

/-- Whether the node is a directory. -/
def Node.isDirectory : Node → Bool
  | directory => true
  | _ => false

/-- A path of a tree, as first spelled, and what stands there. -/
structure TreeEntry where
  path : Path
  node : Node
  deriving DecidableEq, Repr

namespace TreeEntry

/-- The components by which an entry is found. -/
def key (entry : TreeEntry) : List Component :=
  entry.path.components

/-- The name that a listing shows: that of the file as a text, or nothing for a path that ends in
`..`. -/
def name (entry : TreeEntry) : String :=
  entry.path.fileName?.getD ""

/-- Changes what stands at a path; `change` is given what stood there, if anything did. -/
def alter (path : Path) (change : Option Node → Node) : List TreeEntry → List TreeEntry
  | [] => [⟨path, change none⟩]
  | entry :: rest =>
    if entry.key = path.components then ⟨entry.path, change (some entry.node)⟩ :: rest
    else entry :: alter path change rest

theorem mem_keys_alter {path : Path} {change : Option Node → Node} {l : List TreeEntry}
    {k : List Component} :
    k ∈ (alter path change l).map key ↔ k = path.components ∨ k ∈ l.map key := by
  induction l with
  | nil => simp [alter, key]
  | cons entry rest ih =>
    simp only [alter]
    split
    · rename_i h
      simp only [List.map_cons, List.mem_cons]
      rw [show key ⟨entry.path, change (some entry.node)⟩ = key entry from rfl, h]
      exact (or_self_left).symm
    · simp only [List.map_cons, List.mem_cons, ih]
      exact or_left_comm

theorem nodup_keys_alter (path : Path) (change : Option Node → Node) {l : List TreeEntry}
    (h : (l.map key).Nodup) : ((alter path change l).map key).Nodup := by
  induction l with
  | nil => simp [alter]
  | cons entry rest ih =>
    simp only [alter]
    split
    · exact h
    · rename_i hne
      rw [List.map_cons, List.nodup_cons] at h ⊢
      refine ⟨fun hmem => ?_, ih h.2⟩
      rcases mem_keys_alter.mp hmem with hk | hk
      · exact hne hk
      · exact h.1 hk

/-- The last component of the path, or the root when there is none. -/
def lastStep (entry : TreeEntry) : Component :=
  entry.key.getLast?.getD .root

/-- Entries are ordered by their names, and where these read alike by their last components. -/
instance : LT TreeEntry :=
  ⟨fun a b => a.name < b.name ∨ a.name = b.name ∧ a.lastStep < b.lastStep⟩

instance (a b : TreeEntry) : Decidable (a < b) :=
  inferInstanceAs (Decidable (a.name < b.name ∨ a.name = b.name ∧ a.lastStep < b.lastStep))

/-- Puts an entry into an ascending listing. -/
def insertListed (entry : TreeEntry) : List TreeEntry → List TreeEntry
  | [] => [entry]
  | other :: rest =>
    if other < entry then other :: insertListed entry rest else entry :: other :: rest

end TreeEntry

/-- A file tree. -/
structure FileTree where
  root : Path
  entries : List TreeEntry
  distinct : (entries.map TreeEntry.key).Nodup

/-- Why a tree could not be read at a path. The path of a file is the one that was asked for, that
of a listing is the one taken from the root of the tree. -/
inductive ReadError where
  | notFound (path : Path)
  | notAFile (path : Path)
  | permissionDenied (path : Path)
  | invalidUtf8 (path : Path)
  | notADirectory (path : Path)
  deriving DecidableEq, Repr

/-- The text of a read error. -/
def ReadError.message : ReadError → String
  | notFound path => "File not found: " ++ path.quoted
  | notAFile path => "Not a file: " ++ path.quoted
  | permissionDenied path => "Permission denied: " ++ path.quoted
  | invalidUtf8 path => "Invalid UTF-8: " ++ path.quoted
  | notADirectory path => "Directory not found: " ++ path.quoted

namespace FileTree

/-- The tree without entries. -/
def empty (root : Path) : FileTree := ⟨root, [], List.nodup_nil⟩

/-- The path taken from the root of the tree. -/
def resolve (tree : FileTree) (path : Path) : Path :=
  tree.root.join path

/-- What stands at the components, if anything does. -/
def node? (tree : FileTree) (key : List Component) : Option Node :=
  (tree.entries.find? fun entry => entry.key = key).map TreeEntry.node

/-- What stands at the path, if anything does. -/
def find? (tree : FileTree) (path : Path) : Option Node :=
  tree.node? (tree.resolve path).components

/-- Changes what stands at a path that needs no resolving. -/
def alter (tree : FileTree) (path : Path) (change : Option Node → Node) : FileTree :=
  { tree with
    entries := TreeEntry.alter path change tree.entries
    distinct := TreeEntry.nodup_keys_alter path change tree.distinct }

/-- Makes the path a directory unless something stands there. -/
def ensureDirectory (tree : FileTree) (path : Path) : FileTree :=
  tree.alter path fun old => old.getD .directory

/-- Puts a node at a path, after its missing ancestors. -/
def add (tree : FileTree) (path : Path) (node : Node) : FileTree :=
  let path := tree.resolve path
  (path.ancestors.foldl ensureDirectory tree).alter path fun _ => node

/-- The bytes of the file at the path. -/
def read (tree : FileTree) (path : Path) : Except ReadError (List UInt8) :=
  match tree.find? path with
  | none => .error (.notFound path)
  | some .directory => .error (.notAFile path)
  | some .lockedFile => .error (.permissionDenied path)
  | some (.file content) => .ok content

/-- The text of the file at the path, whose bytes must be UTF-8. -/
def readText (tree : FileTree) (path : Path) : Except ReadError String := do
  match Utf8.text? (← tree.read path) with
  | none => .error (.invalidUtf8 path)
  | some text => .ok text

/-- The entries whose parent is the directory at the path, in the order of their names. -/
def list (tree : FileTree) (path : Path) : Except ReadError (List TreeEntry) :=
  let path := tree.resolve path
  match tree.node? path.components with
  | some .directory =>
    let children := tree.entries.filter fun entry =>
      Path.parent? entry.key = some path.components
    .ok (children.foldr TreeEntry.insertListed [])
  | _ => .error (.notADirectory path)

/-- A change at a path shows at its components and nowhere else. -/
theorem node?_alter (tree : FileTree) (path : Path) (change : Option Node → Node)
    (key : List Component) :
    (tree.alter path change).node? key =
      if key = path.components then some (change (tree.node? key)) else tree.node? key := by
  obtain ⟨root, l, h⟩ := tree
  simp only [node?, alter]
  clear h
  induction l with
  | nil =>
    by_cases hk : key = path.components
    · simp [TreeEntry.alter, TreeEntry.key, hk]
    · simp [TreeEntry.alter, TreeEntry.key, hk, Ne.symm hk]
  | cons entry rest ih =>
    simp only [TreeEntry.alter]
    split
    · rename_i he
      by_cases hk : key = path.components
      · subst hk
        have he' : TreeEntry.key ⟨entry.path, change (some entry.node)⟩ = path.components := he
        simp [List.find?, he, he']
      · have he' : TreeEntry.key ⟨entry.path, change (some entry.node)⟩ ≠ key :=
          fun hc => hk (hc.symm.trans he)
        have hne : entry.key ≠ key := he'
        simp [List.find?, hk, hne, he']
    · rename_i he
      by_cases hek : entry.key = key
      · have hk : key ≠ path.components := fun hc => he (hek.trans hc)
        simp [List.find?, hek, hk]
      · simpa [List.find?, hek] using ih

end FileTree

end GoBuildRules
