import Mathlib.Data.List.Induction
import GoBuildRules.Proofs.FileTree.Ancestors
import GoBuildRules.Proofs.FileTree.Removal
import GoBuildRules.Proofs.Fold

/-!
# File trees and their histories

A tree comes from a history of additions, and what the history says about a path is simple: the last
addition at the path itself decides, and a path without one is a directory when an addition leads
through it (`History.standing?`). A tree in memory keeps neither the order of the additions nor the
difference between the two, so this is proved of what one addition changes (`FileTree.node?_add`)
and from there of all of them (`History.node?_tree`).

* `History.tree_shows`: what exists in a tree, what is read from it and what it lists are what the
  history says.
-/

namespace GoBuildRules

/-! ## One addition -/

namespace TreeEntry

/-- The paths after a change are those before it and the one at which it is made. -/
theorem path_of_mem_alter {path : Path} {change : Option Node → Node} {l : List TreeEntry}
    {entry : TreeEntry} (h : entry ∈ alter path change l) :
    entry.path = path ∨ ∃ other ∈ l, other.path = entry.path := by
  induction l with
  | nil => exact .inl (by rw [List.mem_singleton.mp h])
  | cons first rest ih =>
    rw [alter] at h
    split at h
    · rcases List.mem_cons.mp h with rfl | hrest
      · exact .inr ⟨first, List.mem_cons_self, rfl⟩
      · exact .inr ⟨entry, List.mem_cons_of_mem _ hrest, rfl⟩
    · rcases List.mem_cons.mp h with rfl | hrest
      · exact .inr ⟨entry, List.mem_cons_self, rfl⟩
      · rcases ih hrest with heq | ⟨other, hother, hpath⟩
        · exact .inl heq
        · exact .inr ⟨other, List.mem_cons_of_mem _ hother, hpath⟩

end TreeEntry

namespace FileTree

variable {tree : FileTree} {key : List Component}

theorem root_foldl_ensureDirectory (tree : FileTree) (paths : List Path) :
    (paths.foldl ensureDirectory tree).root = tree.root := by
  induction paths generalizing tree with
  | nil => rfl
  | cons path paths ih => exact ih (tree.ensureDirectory path)

/-- Directories are made where nothing stands. -/
theorem node?_foldl_ensureDirectory (tree : FileTree) (paths : List Path) :
    (paths.foldl ensureDirectory tree).node? key =
      (tree.node? key).or (if ∃ path ∈ paths, path.components = key then some .directory
        else none) := by
  induction paths generalizing tree with
  | nil => simp
  | cons path paths ih =>
    rw [List.foldl_cons, ih, ensureDirectory, node?_alter]
    by_cases hkey : key = path.components
    · have hmade : ∃ q ∈ path :: paths, q.components = key := ⟨path, List.mem_cons_self, hkey.symm⟩
      rw [if_pos hkey, if_pos hmade]
      cases tree.node? key <;> rfl
    · have hne : path.components ≠ key := fun h => hkey h.symm
      simp only [if_neg hkey, List.mem_cons, exists_eq_or_imp, hne, false_or]

theorem root_add (tree : FileTree) (path : Path) (node : Node) :
    (tree.add path node).root = tree.root :=
  root_foldl_ensureDirectory tree _

/-- An addition shows at its place, and as a directory at the proper ancestors at which nothing
stood. -/
theorem node?_add (hroot : tree.root.isAbsolute = true) (path : Path) (node : Node)
    (hkey : key ≠ []) :
    (tree.add path node).node? key =
      let place := (tree.resolve path).components
      if key = place then some node
      else (tree.node? key).or (if key <+: place then some .directory else none) := by
  have habsolute : (tree.resolve path).isAbsolute = true := Path.isAbsolute_join hroot path
  simp only [add, node?_alter, node?_foldl_ensureDirectory, Path.exists_mem_ancestors_iff habsolute]
  split
  · rfl
  · rename_i hne
    simp only [hkey, hne, ne_eq, not_false_eq_true, true_and, and_true]

/-- The node at a place is that of the entry there. -/
theorem node?_eq_some_iff {node : Node} :
    tree.node? key = some node ↔ ∃ entry ∈ tree.entries, entry.key = key ∧ entry.node = node := by
  rw [node?, Option.map_eq_some_iff]
  constructor
  · rintro ⟨entry, hfind, hnode⟩
    exact ⟨entry, List.mem_of_find?_eq_some hfind, by simpa using List.find?_some hfind, hnode⟩
  · rintro ⟨entry, hmem, hkey, hnode⟩
    refine ⟨entry, ?_, hnode⟩
    cases hfind : tree.entries.find? fun entry => entry.key = key with
    | none => exact absurd hkey (by simpa using List.find?_eq_none.mp hfind entry hmem)
    | some other =>
      have hother : other.key = key := by simpa using List.find?_some hfind
      rw [List.inj_on_of_nodup_map tree.distinct (List.mem_of_find?_eq_some hfind) hmem
        (hother.trans hkey.symm)]

theorem path_of_mem_foldl_ensureDirectory {paths : List Path} {entry : TreeEntry}
    (h : entry ∈ (paths.foldl ensureDirectory tree).entries) :
    entry.path ∈ paths ∨ ∃ other ∈ tree.entries, other.path = entry.path := by
  induction paths generalizing tree with
  | nil => exact .inr ⟨entry, h, rfl⟩
  | cons path paths ih =>
    rcases ih h with hmem | ⟨other, hother, hpath⟩
    · exact .inl (List.mem_cons_of_mem _ hmem)
    · rcases TreeEntry.path_of_mem_alter hother with heq | ⟨old, hold, heq⟩
      · exact .inl (by rw [← hpath, heq]; exact List.mem_cons_self)
      · exact .inr ⟨old, hold, heq.trans hpath⟩

/-- An addition to a tree with an absolute root and absolute paths leaves the paths absolute. -/
theorem isAbsolute_of_mem_add (hroot : tree.root.isAbsolute = true)
    (htree : ∀ entry ∈ tree.entries, entry.path.isAbsolute = true) {path : Path} {node : Node}
    {entry : TreeEntry} (h : entry ∈ (tree.add path node).entries) :
    entry.path.isAbsolute = true := by
  have hpath : (tree.resolve path).isAbsolute = true := Path.isAbsolute_join hroot path
  rcases TreeEntry.path_of_mem_alter h with heq | ⟨other, hother, heq⟩
  · rwa [heq]
  · rw [← heq]
    rcases path_of_mem_foldl_ensureDirectory hother with hmem | ⟨old, hold, heq⟩
    · exact Path.isAbsolute_of_mem_ancestors hpath hmem
    · exact heq ▸ htree old hold

end FileTree

namespace TreeEntry

/-- The bytes of the name; none for a path that ends in `..`. -/
def nameBytes (entry : TreeEntry) : List UInt8 :=
  match entry.lastStep with
  | .name spelling => spelling
  | _ => []

/-- Whether the bytes of the name are UTF-8. -/
def hasTextName (entry : TreeEntry) : Bool :=
  entry.nameBytes = Utf8.encode entry.name

/-- Entries in a listing come in the order of their names, and names that read alike in the order of
their bytes, when the last steps are steps between slashes. -/
theorem name_lt_of_lt {a b : TreeEntry} (ha : a.lastStep.IsStep) (hb : b.lastStep.IsStep)
    (h : a < b) : a.name < b.name ∨ a.name = b.name ∧ a.nameBytes < b.nameBytes := by
  refine (lt_def.mp h).imp_right fun ⟨hname, hstep⟩ => ⟨hname, ?_⟩
  rw [name_eq_of_lastStep a, name_eq_of_lastStep b] at hname
  rw [nameBytes, nameBytes]
  -- A name never reads like the empty name of a `..`, so both steps are of one kind.
  rcases ha.cases with hup | ⟨s, hs, hs_name⟩ <;> rcases hb.cases with hup' | ⟨t, ht, ht_name⟩
  · rw [hup, hup'] at hstep
    exact absurd hstep (Component.lt_irrefl _)
  · rw [hup, ht] at hname
    exact absurd (Utf8.lossyText_eq_empty_iff.mp hname.symm) ht_name.ne_nil
  · rw [hs, hup'] at hname
    exact absurd (Utf8.lossyText_eq_empty_iff.mp hname) hs_name.ne_nil
  · rw [hs, ht] at hstep ⊢
    exact Component.name_lt_name.mp hstep

end TreeEntry

/-! ## Histories -/

/-- An addition to a tree: a node, and the path at which it is put. -/
structure Addition where
  path : Path
  node : Node
  deriving DecidableEq, Repr

/-- The additions to a tree with the given root, first to last. -/
structure History where
  root : Path
  additions : List Addition
  deriving DecidableEq, Repr

namespace History

/-- The place that a path means: the components of the path taken from the root. -/
def place (h : History) (path : Path) : List Component :=
  (h.root.join path).components

/-- The tree that the additions make. -/
def tree (h : History) : FileTree :=
  h.additions.foldl (fun tree a => tree.add a.path a.node) (.empty h.root)

/-- Whether something was added at the place itself. -/
def Adds (h : History) (place : List Component) : Prop :=
  ∃ a ∈ h.additions, h.place a.path = place

/-- Whether the place is a proper ancestor of one at which something was added. -/
def LeadsThrough (h : History) (place : List Component) : Prop :=
  ∃ a ∈ h.additions, place <+: h.place a.path ∧ place ≠ h.place a.path

/-- What was last added at the place itself. -/
def lastAt? (h : History) (place : List Component) : Option Node :=
  (h.additions.filter fun a => h.place a.path = place).getLast?.map Addition.node

/-- Whether the place is that of a directory: one was last added there, or nothing was and an
addition leads through it. -/
def IsDirectory (h : History) (place : List Component) : Prop :=
  h.lastAt? place = some .directory ∨ ¬ h.Adds place ∧ h.LeadsThrough place

instance (h : History) (place : List Component) : Decidable (h.Adds place) :=
  inferInstanceAs (Decidable (∃ a ∈ h.additions, h.place a.path = place))

instance (h : History) (place : List Component) : Decidable (h.LeadsThrough place) :=
  inferInstanceAs (Decidable (∃ a ∈ h.additions, place <+: h.place a.path ∧ place ≠ h.place a.path))

/-- What stands at a place by the history: what was last added there, or else a directory on the way
to an addition. -/
def standing? (h : History) (place : List Component) : Option Node :=
  (h.lastAt? place).or (if h.LeadsThrough place then some .directory else none)

/-- The history with one more addition. -/
def extend (h : History) (a : Addition) : History :=
  { h with additions := h.additions ++ [a] }

variable {h : History} {key : List Component}

/-- What holds without additions and stays with each more holds of every history. -/
theorem extend_induction {motive : History → Prop} (empty : ∀ root, motive ⟨root, []⟩)
    (extend : ∀ h a, motive h → motive (h.extend a)) (h : History) : motive h := by
  obtain ⟨root, additions⟩ := h
  induction additions using List.reverseRecOn with
  | nil => exact empty root
  | append_singleton additions a ih => exact extend ⟨root, additions⟩ a ih

theorem tree_extend (h : History) (a : Addition) :
    (h.extend a).tree = h.tree.add a.path a.node := by
  rw [tree, extend, List.foldl_concat]
  rfl

theorem root_tree (h : History) : h.tree.root = h.root := by
  induction h using extend_induction with
  | empty root => rfl
  | extend h a ih =>
    rw [tree_extend, FileTree.root_add, ih]
    rfl

theorem lastAt?_extend (h : History) (a : Addition) :
    (h.extend a).lastAt? key = if key = h.place a.path then some a.node else h.lastAt? key := by
  have hlast : (h.extend a).lastAt? key =
      ((h.additions ++ [a]).filter fun b => h.place b.path = key).getLast?.map Addition.node := rfl
  rw [hlast, List.filter_append, lastAt?]
  split
  · rename_i hkey
    simp [hkey]
  · rename_i hkey
    simp [Ne.symm hkey]

theorem leadsThrough_extend_iff (h : History) (a : Addition) :
    (h.extend a).LeadsThrough key ↔
      h.LeadsThrough key ∨ key <+: h.place a.path ∧ key ≠ h.place a.path := by
  have hleads : (h.extend a).LeadsThrough key ↔
      ∃ b ∈ h.additions ++ [a], key <+: h.place b.path ∧ key ≠ h.place b.path := Iff.rfl
  rw [hleads, LeadsThrough]
  simp only [List.mem_append, List.mem_singleton, or_and_right, exists_or, exists_eq_left]

theorem components_resolve_tree (h : History) (path : Path) :
    (h.tree.resolve path).components = h.place path := by
  rw [FileTree.resolve, root_tree, place]

/-- The tree has at every place what stands there by the history. -/
theorem node?_tree (hroot : h.root.isAbsolute = true) (hkey : key ≠ []) :
    h.tree.node? key = h.standing? key := by
  induction h using extend_induction with
  | empty root => rfl
  | extend h a ih =>
    have htree : h.tree.root.isAbsolute = true := (root_tree h).symm ▸ hroot
    rw [tree_extend, FileTree.node?_add htree a.path a.node hkey, components_resolve_tree, ih hroot,
      standing?, standing?, lastAt?_extend]
    simp only [leadsThrough_extend_iff]
    split
    · rfl
    · rename_i hne
      rw [Option.or_assoc]
      congr 1
      by_cases hleads : h.LeadsThrough key
      · simp [hleads]
      · simp [hleads, hne]

theorem place_ne_nil (hroot : h.root.isAbsolute = true) (path : Path) : h.place path ≠ [] :=
  Path.components_ne_nil (Path.ne_nil_of_isAbsolute (Path.isAbsolute_join hroot path))

theorem find?_tree (hroot : h.root.isAbsolute = true) (path : Path) :
    h.tree.find? path = h.standing? (h.place path) := by
  rw [FileTree.find?, components_resolve_tree]
  exact node?_tree hroot (place_ne_nil hroot path)

/-! ## What stands at a place -/

theorem lastAt?_eq_none_iff : h.lastAt? key = none ↔ ¬ h.Adds key := by
  simp [lastAt?, Adds]

theorem isSome_standing?_iff :
    (h.standing? key).isSome = true ↔ h.Adds key ∨ h.LeadsThrough key := by
  have hlast : (h.lastAt? key).isSome = true ↔ h.Adds key := by
    rw [Option.isSome_iff_ne_none, ne_eq, lastAt?_eq_none_iff, not_not]
  rw [standing?, Option.isSome_or, Bool.or_eq_true, hlast]
  split <;> simp [*]

/-- What stands at a place was added there, or is a directory on the way to an addition. -/
theorem standing?_eq_some_iff {node : Node} :
    h.standing? key = some node ↔
      h.lastAt? key = some node ∨ ¬ h.Adds key ∧ h.LeadsThrough key ∧ node = .directory := by
  rw [standing?, Option.or_eq_some_iff, lastAt?_eq_none_iff]
  refine or_congr_right (and_congr_right fun _ => ?_)
  split <;> simp [*, eq_comm]

theorem standing?_eq_directory_iff : h.standing? key = some .directory ↔ h.IsDirectory key := by
  rw [standing?_eq_some_iff, IsDirectory]
  simp only [and_true]

/-- A file that stands at a place was last added there. -/
theorem standing?_eq_some_iff_of_ne {node : Node} (hne : node ≠ .directory) :
    h.standing? key = some node ↔ h.lastAt? key = some node := by
  simp only [standing?_eq_some_iff, hne, and_false, or_false]

/-! ## Reading -/

theorem read_tree_eq_ok_iff (hroot : h.root.isAbsolute = true) (path : Path)
    (content : List UInt8) :
    h.tree.read path = .ok content ↔ h.lastAt? (h.place path) = some (.file content) := by
  rw [FileTree.read, find?_tree hroot, ← standing?_eq_some_iff_of_ne Node.noConfusion]
  split <;> simp [*]

theorem read_tree_eq_notFound_iff (hroot : h.root.isAbsolute = true) (path : Path) :
    h.tree.read path = .error (.notFound path) ↔
      ¬ (h.Adds (h.place path) ∨ h.LeadsThrough (h.place path)) := by
  rw [FileTree.read, find?_tree hroot, ← isSome_standing?_iff]
  split <;> simp [*]

theorem read_tree_eq_notAFile_iff (hroot : h.root.isAbsolute = true) (path : Path) :
    h.tree.read path = .error (.notAFile path) ↔ h.IsDirectory (h.place path) := by
  rw [FileTree.read, find?_tree hroot, ← standing?_eq_directory_iff]
  split <;> simp [*]

theorem read_tree_eq_permissionDenied_iff (hroot : h.root.isAbsolute = true) (path : Path) :
    h.tree.read path = .error (.permissionDenied path) ↔
      h.lastAt? (h.place path) = some .lockedFile := by
  rw [FileTree.read, find?_tree hroot, ← standing?_eq_some_iff_of_ne Node.noConfusion]
  split <;> simp [*]

theorem any_isDirectory_find?_iff (hroot : h.root.isAbsolute = true) (path : Path) :
    (h.tree.find? path).any Node.isDirectory = true ↔ h.IsDirectory (h.place path) := by
  rw [find?_tree hroot, ← standing?_eq_directory_iff]
  cases h.standing? (h.place path) with
  | none => simp
  | some node => cases node <;> simp [Node.isDirectory]

/-! ## Listing -/

/-- The entries that a listing of the directory at the path has to have. -/
structure IsListing (h : History) (path : Path) (entries : List TreeEntry) : Prop where
  /-- The entries are strictly sorted by name: as the names read, and where two names read alike by
  their bytes. -/
  ascending : entries.Pairwise fun a b =>
    a.name < b.name ∨ a.name = b.name ∧ a.nameBytes < b.nameBytes
  /-- No two names that are UTF-8 read alike, so these are strictly sorted as they read. -/
  texts_ascending : (entries.filter TreeEntry.hasTextName).Pairwise fun a b => a.name < b.name
  /-- An entry shows what stands at its path. -/
  shows : ∀ entry ∈ entries, h.tree.find? entry.path = some entry.node
  /-- A path is listed when it exists and the directory is its parent. -/
  listed_iff : ∀ q, (∃ entry ∈ entries, h.place entry.path = h.place q) ↔
    (h.tree.find? q).isSome = true ∧ Path.parent? (h.place q) = some (h.place path)

/-- The paths of a tree with an absolute root are absolute. -/
theorem isAbsolute_of_mem_tree (hroot : h.root.isAbsolute = true) {entry : TreeEntry}
    (hentry : entry ∈ h.tree.entries) : entry.path.isAbsolute = true := by
  induction h using extend_induction generalizing entry with
  | empty root => cases hentry
  | extend h a ih =>
    rw [tree_extend] at hentry
    exact FileTree.isAbsolute_of_mem_add (root_tree h ▸ hroot) (fun _ => ih hroot) hentry

theorem place_of_mem_tree (hroot : h.root.isAbsolute = true) {entry : TreeEntry}
    (hentry : entry ∈ h.tree.entries) : h.place entry.path = entry.key := by
  rw [place, Path.join_of_isAbsolute (isAbsolute_of_mem_tree hroot hentry), TreeEntry.key]

/-- The last step of a path below another one is a step between slashes. -/
theorem isStep_lastStep (hroot : h.root.isAbsolute = true) {entry : TreeEntry} {path : Path}
    (hentry : entry ∈ h.tree.entries) (hkey : entry.key = h.place path ++ [entry.lastStep]) :
    entry.lastStep.IsStep := by
  obtain ⟨steps, hsteps, hall⟩ := Path.exists_components_eq (isAbsolute_of_mem_tree hroot hentry)
  rw [TreeEntry.key, hsteps] at hkey
  -- Below a path there is at least one step, so the last component is not the root.
  rcases List.eq_nil_or_concat' steps with rfl | ⟨front, last, rfl⟩
  · have hlength := congrArg List.length hkey
    have hpos := List.length_pos_iff.mpr (place_ne_nil hroot path)
    rw [List.length_append, List.length_singleton, List.length_singleton] at hlength
    omega
  · have hlast : last = entry.lastStep := by
      rw [← List.cons_append] at hkey
      simpa using (List.append_inj' hkey rfl).2
    exact hall _ (hlast ▸ List.mem_append_right _ List.mem_cons_self)

theorem find?_of_mem_tree (hroot : h.root.isAbsolute = true) {entry : TreeEntry}
    (hentry : entry ∈ h.tree.entries) : h.tree.find? entry.path = some entry.node := by
  rw [find?_tree hroot, ← node?_tree hroot (place_ne_nil hroot _), place_of_mem_tree hroot hentry,
    FileTree.node?_eq_some_iff]
  exact ⟨entry, hentry, rfl, rfl⟩

/-- A path that exists is that of an entry, though it may be spelled in another way. -/
theorem exists_mem_tree (hroot : h.root.isAbsolute = true) {q : Path}
    (hexists : (h.tree.find? q).isSome = true) :
    ∃ entry ∈ h.tree.entries, h.place entry.path = h.place q := by
  obtain ⟨node, hnode⟩ := Option.isSome_iff_exists.mp hexists
  rw [find?_tree hroot, ← node?_tree hroot (place_ne_nil hroot q),
    FileTree.node?_eq_some_iff] at hnode
  obtain ⟨entry, hentry, hkey, -⟩ := hnode
  exact ⟨entry, hentry, (place_of_mem_tree hroot hentry).trans hkey⟩

theorem mem_list_tree_iff {path : Path} {entries : List TreeEntry} {entry : TreeEntry}
    (hlist : h.tree.list path = .ok entries) :
    entry ∈ entries ↔ entry ∈ h.tree.entries ∧ Path.parent? entry.key = some (h.place path) := by
  rw [FileTree.mem_list_iff hlist, components_resolve_tree]

/-- What a directory lists is sorted by name. -/
theorem pairwise_list_tree (hroot : h.root.isAbsolute = true) {path : Path}
    {entries : List TreeEntry} (hlist : h.tree.list path = .ok entries) :
    entries.Pairwise fun a b =>
      a.name < b.name ∨ a.name = b.name ∧ a.nameBytes < b.nameBytes := by
  -- What is listed lies below an absolute path, so it ends in a step and not in the root.
  have hstep : ∀ entry ∈ entries, entry.lastStep.IsStep := fun entry hentry => by
    obtain ⟨htree, hparent⟩ := (mem_list_tree_iff hlist).mp hentry
    exact isStep_lastStep hroot htree (TreeEntry.key_eq_of_parent? hparent)
  refine (FileTree.pairwise_list hlist).imp_of_mem fun ha hb hlt => ?_
  exact TreeEntry.name_lt_of_lt (hstep _ ha) (hstep _ hb) hlt

/-- What a directory lists is the listing that it has to have. -/
theorem isListing_of_list_tree (hroot : h.root.isAbsolute = true) {path : Path}
    {entries : List TreeEntry} (hlist : h.tree.list path = .ok entries) :
    h.IsListing path entries where
  ascending := pairwise_list_tree hroot hlist
  texts_ascending := by
    refine ((pairwise_list_tree hroot hlist).filter _).imp_of_mem fun {a b} ha hb hlt => ?_
    have htext_a : a.nameBytes = Utf8.encode a.name := of_decide_eq_true (List.mem_filter.mp ha).2
    have htext_b : b.nameBytes = Utf8.encode b.name := of_decide_eq_true (List.mem_filter.mp hb).2
    -- Texts that read alike have the same bytes.
    refine hlt.resolve_right fun ⟨hname, hbytes⟩ => ?_
    rw [htext_a, htext_b, hname] at hbytes
    exact List.lt_irrefl _ hbytes
  shows _ hentry := find?_of_mem_tree hroot ((mem_list_tree_iff hlist).mp hentry).1
  listed_iff q := by
    constructor
    · rintro ⟨entry, hentry, hplace⟩
      obtain ⟨htree, hparent⟩ := (mem_list_tree_iff hlist).mp hentry
      rw [find?_tree hroot, ← hplace, ← find?_tree hroot, find?_of_mem_tree hroot htree,
        place_of_mem_tree hroot htree]
      exact ⟨rfl, hparent⟩
    · rintro ⟨hexists, hparent⟩
      obtain ⟨entry, htree, hplace⟩ := exists_mem_tree hroot hexists
      rw [← hplace, place_of_mem_tree hroot htree] at hparent
      exact ⟨entry, (mem_list_tree_iff hlist).mpr ⟨htree, hparent⟩, hplace⟩

/-- A directory of the tree is one of the history. -/
theorem node?_resolve_tree_iff (hroot : h.root.isAbsolute = true) (path : Path) :
    h.tree.node? (h.tree.resolve path).components = some .directory ↔
      h.IsDirectory (h.place path) := by
  rw [components_resolve_tree, node?_tree hroot (place_ne_nil hroot path),
    standing?_eq_directory_iff]

/-- Directories are listed. -/
theorem exists_list_tree (hroot : h.root.isAbsolute = true) {path : Path}
    (hdirectory : h.IsDirectory (h.place path)) :
    ∃ entries, h.tree.list path = .ok entries ∧ h.IsListing path entries := by
  -- A directory of the history stands in the tree, which is what a listing asks for.
  obtain ⟨entries, hlist⟩ : ∃ entries, h.tree.list path = .ok entries := by
    rw [FileTree.list, (node?_resolve_tree_iff hroot path).mpr hdirectory]
    exact ⟨_, rfl⟩
  exact ⟨entries, hlist, isListing_of_list_tree hroot hlist⟩

/-- Nothing but directories is listed. -/
theorem list_tree_eq_error (hroot : h.root.isAbsolute = true) {path : Path}
    (hdirectory : ¬ h.IsDirectory (h.place path)) :
    h.tree.list path = .error (.notADirectory (h.root.join path)) := by
  rw [FileTree.list]
  split
  · rename_i hnode
    exact absurd ((node?_resolve_tree_iff hroot path).mp hnode) hdirectory
  · rw [FileTree.resolve, root_tree]

/-! ## The whole tree -/

/-- **A tree shows its history.** In a tree whose root is absolute a path exists exactly when
something was added there or below it. It is a directory exactly when one was last added there, or
when nothing was and something was added below it. What is read is the file that was last added
there. Otherwise the path is reported as not found when it does not exist, as no file when it is a
directory, and as denied when the file there cannot be read. Directories and nothing else are
listed, each by the existing paths of which it is the parent. -/
theorem tree_shows (hroot : h.root.isAbsolute = true) (path : Path) :
    let place := h.place path
    ((h.tree.find? path).isSome = true ↔ h.Adds place ∨ h.LeadsThrough place) ∧
      ((h.tree.find? path).any Node.isDirectory = true ↔ h.IsDirectory place) ∧
      (∀ content, h.tree.read path = .ok content ↔ h.lastAt? place = some (.file content)) ∧
      (h.tree.read path = .error (.notFound path) ↔ ¬ (h.Adds place ∨ h.LeadsThrough place)) ∧
      (h.tree.read path = .error (.notAFile path) ↔ h.IsDirectory place) ∧
      (h.tree.read path = .error (.permissionDenied path) ↔ h.lastAt? place = some .lockedFile) ∧
      ((∃ entries, h.tree.list path = .ok entries) ↔ h.IsDirectory place) ∧
      ∀ entries, h.tree.list path = .ok entries → h.IsListing path entries := by
  -- The tree is taken for its history once (`find?_tree`); each part reads the last addition.
  have hexists : (h.tree.find? path).isSome = true ↔
      h.Adds (h.place path) ∨ h.LeadsThrough (h.place path) := by
    rw [find?_tree hroot, isSome_standing?_iff]
  have hlist : (∃ entries, h.tree.list path = .ok entries) ↔ h.IsDirectory (h.place path) := by
    constructor
    · rintro ⟨entries, hentries⟩
      by_contra hdirectory
      cases hentries.symm.trans (list_tree_eq_error hroot hdirectory)
    · intro hdirectory
      obtain ⟨entries, hentries, -⟩ := exists_list_tree hroot hdirectory
      exact ⟨entries, hentries⟩
  exact ⟨hexists, any_isDirectory_find?_iff hroot path, read_tree_eq_ok_iff hroot path,
    read_tree_eq_notFound_iff hroot path, read_tree_eq_notAFile_iff hroot path,
    read_tree_eq_permissionDenied_iff hroot path, hlist, fun _ => isListing_of_list_tree hroot⟩

/-- A directory in the place of a file, above a file that was added before. -/
def fileThenDirectory : History where
  root := .ofText "/repo"
  additions := [⟨.ofText "a", .lockedFile⟩, ⟨.ofText "a/x", .file [1]⟩,
    ⟨.ofText "a/./y/z", .lockedFile⟩, ⟨.ofText "/repo//a/", .directory⟩]

theorem tree_shows_fileThenDirectory :
    let h := fileThenDirectory
    h.root.isAbsolute = true ∧ h.tree.read (.ofText "a//x") = .ok [1] ∧
      h.tree.read (.ofText "a/x/y") = .error (.notFound (.ofText "a/x/y")) ∧
      h.tree.read (.ofText "a/y") = .error (.notAFile (.ofText "a/y")) ∧
      h.tree.read (.ofText "a/y/z") = .error (.permissionDenied (.ofText "a/y/z")) ∧
      ∃ entries, h.tree.list (.ofText "a/") = .ok entries ∧ h.IsListing (.ofText "a/") entries := by
  intro h
  have hroot : h.root.isAbsolute = true := by decide
  obtain ⟨-, -, hx, -, -, -, -, -⟩ := tree_shows hroot (.ofText "a//x")
  obtain ⟨-, -, -, hmissing, -, -, -, -⟩ := tree_shows hroot (.ofText "a/x/y")
  obtain ⟨-, -, -, -, hy, -, -, -⟩ := tree_shows hroot (.ofText "a/y")
  obtain ⟨-, -, -, -, -, hz, -, -⟩ := tree_shows hroot (.ofText "a/y/z")
  obtain ⟨-, -, -, -, -, -, hlist, hlisting⟩ := tree_shows hroot (.ofText "a/")
  obtain ⟨entries, hentries⟩ := hlist.mpr (.inl (by decide))
  exact ⟨hroot, (hx [1]).mpr (by decide), hmissing.mpr (by decide), hy.mpr (.inr (by decide)),
    hz.mpr (by decide), entries, hentries, hlisting entries hentries⟩

/-- A directory with a path that ends in `..` and with two files whose names read alike, since
neither is UTF-8. -/
def readAlike : History where
  root := .ofText "/repo"
  additions := [⟨.ofText "a/+x", .lockedFile⟩, ⟨.ofText "a/..", .directory⟩,
    ⟨⟨Utf8.encode "a/" ++ [0xfe]⟩, .lockedFile⟩, ⟨⟨Utf8.encode "a/" ++ [0xff]⟩, .lockedFile⟩]

/-- The names that a listing shows need not be strictly sorted, since two of them can read alike.
Nor need the last steps of its paths be sorted, since a path that ends in `..` shows no name and
comes first. -/
theorem not_pairwise_readAlike :
    readAlike.root.isAbsolute = true ∧
      ∃ entries, readAlike.tree.list (.ofText "a") = .ok entries ∧
        ¬ entries.Pairwise (fun a b => a.name < b.name) ∧
        ¬ entries.Pairwise fun a b => a.lastStep.bytes < b.lastStep.bytes := by
  have hany : (readAlike.tree.list (.ofText "a")).toOption.any (fun entries =>
      decide (¬ entries.Pairwise (fun a b => a.name < b.name) ∧
        ¬ entries.Pairwise fun a b => a.lastStep.bytes < b.lastStep.bytes)) = true := by
    decide +kernel
  cases hlist : readAlike.tree.list (.ofText "a") with
  | error e =>
    rw [hlist] at hany
    cases hany
  | ok entries =>
    rw [hlist] at hany
    exact ⟨by decide, entries, rfl, of_decide_eq_true hany⟩

end History

end GoBuildRules
