import GoBuildRules.Proofs.FileTree.Listing

/-!
# Trees without some of their files

A tree from which entries of one directory are taken away (`FileTree.without`) has the others as
they were.

* `list_without`: the directory lists what remains.
* `read_without`: what remains reads as before. The path of a listed entry is taken from the root of
  the tree when it is read, and it never leads to another entry of the listing
  (`eq_of_components_resolve`).
-/

namespace GoBuildRules

namespace FileTree

/-- The tree without some of its entries. -/
def without (tree : FileTree) (gone : List TreeEntry) : FileTree :=
  { tree with
    entries := tree.entries.filter fun entry => entry ∉ gone
    distinct := tree.distinct.sublist (List.filter_sublist.map _) }

variable {tree : FileTree} {dir : Path} {entries gone : List TreeEntry} {entry other : TreeEntry}

/-- The entries of a listing are those whose parent is the directory. -/
theorem mem_list_iff (h : tree.list dir = .ok entries) :
    entry ∈ entries ↔
      entry ∈ tree.entries ∧ Path.parent? entry.key = some (tree.resolve dir).components := by
  simp only [list] at h
  split at h
  · rw [← Except.ok.inj h, TreeEntry.mem_foldr_insertListed, List.mem_filter, decide_eq_true_eq]
  · cases h

/-- The entries of a listing have all their steps but the last in common. -/
theorem key_eq_of_mem_list (h : tree.list dir = .ok entries) (hentry : entry ∈ entries) :
    entry.key = (tree.resolve dir).components ++ [entry.lastStep] :=
  TreeEntry.key_eq_of_parent? ((mem_list_iff h).mp hentry).2

/-- What is at a path does not change when other entries go. -/
theorem node?_without {key : List Component} (h : ∀ entry ∈ gone, entry.key ≠ key) :
    (tree.without gone).node? key = tree.node? key := by
  have hfind : ∀ entry : TreeEntry,
      decide (decide (entry ∉ gone) = true ∧ decide (entry.key = key) = true) =
        decide (entry.key = key) := by
    intro entry
    by_cases hkey : entry.key = key
    · have hgone : entry ∉ gone := fun hmem => h entry hmem hkey
      simp [hkey, hgone]
    · simp [hkey]
  rw [node?, node?, without, List.find?_filter]
  simp only [hfind]

theorem node?_dir_without (h : tree.list dir = .ok entries)
    (hgone : ∀ entry ∈ gone, entry ∈ entries) :
    (tree.without gone).node? (tree.resolve dir).components =
      tree.node? (tree.resolve dir).components := by
  refine node?_without fun entry hentry hkey => ?_
  rw [key_eq_of_mem_list h (hgone entry hentry)] at hkey
  exact absurd hkey (by simp)

/-- The directory lists the entries that remain, in the same order. -/
theorem list_without (h : tree.list dir = .ok entries)
    (hgone : ∀ entry ∈ gone, entry ∈ entries) :
    (tree.without gone).list dir = .ok (entries.filter fun entry => entry ∉ gone) := by
  have hdir : tree.node? (tree.resolve dir).components = some .directory := by
    simp only [list] at h
    split at h
    · assumption
    · cases h
  obtain ⟨remaining, hlist⟩ : ∃ remaining, (tree.without gone).list dir = .ok remaining := by
    have hresolve : (tree.without gone).resolve dir = tree.resolve dir := rfl
    rw [list, hresolve, node?_dir_without h hgone, hdir]
    exact ⟨_, rfl⟩
  have hremaining : remaining = entries.filter fun entry => entry ∉ gone := by
    refine (pairwise_list hlist).eq_of_mem_iff ((pairwise_list h).filter _) fun entry => ?_
    rw [mem_list_iff hlist, List.mem_filter, mem_list_iff h, without, List.mem_filter]
    exact and_right_comm
  rw [hlist, hremaining]

theorem eq_of_key_eq (h : tree.list dir = .ok entries) (hentry : entry ∈ entries)
    (hother : other ∈ entries) (hkey : entry.key = other.key) : entry = other := by
  rw [key_eq_of_mem_list h hentry, key_eq_of_mem_list h hother] at hkey
  exact eq_of_lastStep_eq (pairwise_list h) hentry hother (by simpa using hkey)

/-- A listed entry that is read by its path is never taken for another of the listing. -/
theorem eq_of_components_resolve (h : tree.list dir = .ok entries) (hentry : entry ∈ entries)
    (hother : other ∈ entries) (hresolve : (tree.resolve entry.path).components = other.key) :
    entry = other := by
  by_cases hroot : tree.root.bytes = []
  · rw [resolve, Path.join_of_bytes_eq_nil hroot] at hresolve
    exact eq_of_key_eq h hentry hother hresolve
  cases habsolute : entry.path.isAbsolute with
  | true =>
    rw [resolve, Path.join_of_isAbsolute habsolute] at hresolve
    exact eq_of_key_eq h hentry hother hresolve
  | false =>
    -- The path is taken from the root, where it keeps its last step; so the steps agree.
    have hkey := key_eq_of_mem_list h hentry
    rw [resolve, Path.components_join habsolute hroot, key_eq_of_mem_list h hother] at hresolve
    rw [TreeEntry.key, Path.components] at hkey
    rcases List.eq_nil_or_concat' (Path.stepsOf entry.path.bytes) with
      hsteps | ⟨steps, last, hsteps⟩
    · have hlength := congrArg List.length hkey
      have hstart := Path.length_startOf_le entry.path.bytes
      have hdir := List.length_pos_iff.mpr (Path.components_join_ne_nil hroot dir)
      rw [hsteps, List.append_nil, List.length_append, List.length_singleton, resolve] at hlength
      omega
    · rw [hsteps, ← List.append_assoc] at hkey hresolve
      have hentry_last : last = entry.lastStep := by simpa using (List.append_inj' hkey rfl).2
      have hother_last : last = other.lastStep := by simpa using (List.append_inj' hresolve rfl).2
      exact eq_of_lastStep_eq (pairwise_list h) hentry hother (hentry_last.symm.trans hother_last)

/-- An entry that remains reads as before. -/
theorem read_without (h : tree.list dir = .ok entries) (hgone : ∀ entry ∈ gone, entry ∈ entries)
    (hentry : entry ∈ entries) (hremains : entry ∉ gone) :
    (tree.without gone).read entry.path = tree.read entry.path := by
  have hnode : (tree.without gone).find? entry.path = tree.find? entry.path := by
    refine node?_without fun other hother hkey => ?_
    have heq := eq_of_components_resolve h hentry (hgone other hother) hkey.symm
    exact hremains (heq ▸ hother)
  rw [read, read, hnode]

theorem readText_without (h : tree.list dir = .ok entries) (hgone : ∀ entry ∈ gone, entry ∈ entries)
    (hentry : entry ∈ entries) (hremains : entry ∉ gone) :
    (tree.without gone).readText entry.path = tree.readText entry.path := by
  rw [readText, readText, read_without h hgone hentry hremains]

theorem without_nil (tree : FileTree) : tree.without [] = tree := by
  obtain ⟨root, entries, distinct⟩ := tree
  simp [without]

end FileTree

end GoBuildRules
