import GoBuildRules.Proofs.FileTree.History

/-!
# Parents of existing paths

The parent of an existing path always exists, since an addition at the path or below it leads
through the parent. But a file that is added at the parent itself, before or after, stays there: the
directories on the way to an addition never replace anything. So the parent is a directory, which
lists the path, exactly when the last addition at the parent itself was no file
(`History.parents_exist`).
-/

namespace GoBuildRules.History

variable {h : History} {key parent : List Component} {path : Path}

/-- Whether a file was last added at the place itself. -/
def HasFile (h : History) (place : List Component) : Prop :=
  ∃ node, h.lastAt? place = some node ∧ node ≠ .directory

theorem LeadsThrough.of_begins (hkey : h.Adds key ∨ h.LeadsThrough key) (hbegins : parent <+: key)
    (hne : parent ≠ key) : h.LeadsThrough parent := by
  have hlength : parent.length < key.length :=
    lt_of_le_of_ne hbegins.length_le fun heq => hne (hbegins.eq_of_length heq)
  rcases hkey with ⟨a, ha, rfl⟩ | ⟨a, ha, hbelow, -⟩
  · exact ⟨a, ha, hbegins, hne⟩
  · refine ⟨a, ha, hbegins.trans hbelow, fun heq => ?_⟩
    have hle := hbelow.length_le
    rw [← heq] at hle
    omega

/-- A place on the way to an addition is that of a directory unless a file was last added there. -/
theorem isDirectory_iff_not_hasFile (hleads : h.LeadsThrough key) :
    h.IsDirectory key ↔ ¬ h.HasFile key := by
  rw [IsDirectory, HasFile, ← lastAt?_eq_none_iff]
  cases h.lastAt? key with
  | none => simp [hleads]
  | some node => simp

/-- The parent of an existing path other than the root is on the way to an addition. -/
theorem leadsThrough_of_parent? (hroot : h.root.isAbsolute = true)
    (hexists : (h.tree.find? path).isSome = true)
    (hparent : Path.parent? (h.place path) = some parent) : h.LeadsThrough parent := by
  have habsolute := Path.isAbsolute_join hroot path
  have hne : h.place path ≠ [.root] := by
    intro heq
    rw [heq] at hparent
    cases hparent
  rw [place, Path.parent?_components habsolute hne] at hparent
  obtain rfl := Option.some.inj hparent
  rw [find?_tree hroot, isSome_standing?_iff] at hexists
  have hproper := (Path.prefix_dropLast_iff (place_ne_nil hroot path)).mp List.prefix_rfl
  exact .of_begins hexists hproper.1 hproper.2

/-- A path other than the root has a parent. -/
theorem exists_parent (hroot : h.root.isAbsolute = true) (hne : h.place path ≠ [.root]) :
    ∃ parent : Path, Path.parent? (h.place path) = some (h.place parent) := by
  have habsolute := Path.isAbsolute_join hroot path
  have hproper := (Path.prefix_dropLast_iff (place_ne_nil hroot path)).mp List.prefix_rfl
  have hdropLast : (h.place path).dropLast ≠ [] := by
    obtain ⟨steps, hsteps, -⟩ := Path.exists_components_eq habsolute
    rw [place] at hne ⊢
    rw [hsteps] at hne ⊢
    cases steps with
    | nil => exact absurd rfl hne
    | cons c steps => exact List.cons_ne_nil _ _
  obtain ⟨q, hq, hcomponents⟩ :=
    (Path.exists_mem_ancestors_iff habsolute).mpr ⟨hdropLast, hproper⟩
  refine ⟨q, ?_⟩
  rw [place, place, Path.join_of_isAbsolute (Path.isAbsolute_of_mem_ancestors habsolute hq),
    hcomponents, Path.parent?_components habsolute hne, place]

/-- **Every existing path has an existing parent.** In a tree whose root is absolute every existing
path other than the root has a parent, and the parent exists. Unless a file was last added at the
parent itself, it is a directory, and a listing of it contains the path. If one was, the parent is
no directory and cannot be listed. -/
theorem parents_exist (hroot : h.root.isAbsolute = true)
    (hexists : (h.tree.find? path).isSome = true) (hne : h.place path ≠ [.root]) :
    (∃ parent : Path, Path.parent? (h.place path) = some (h.place parent)) ∧
      ∀ parent : Path, Path.parent? (h.place path) = some (h.place parent) →
        (h.tree.find? parent).isSome = true ∧
        (¬ h.HasFile (h.place parent) → h.tree.find? parent = some .directory ∧
          ∃ entries, h.tree.list parent = .ok entries ∧
            ∃ entry ∈ entries, h.place entry.path = h.place path) ∧
        (h.HasFile (h.place parent) → (h.tree.find? parent).any Node.isDirectory = false ∧
          h.tree.list parent = .error (.notADirectory (h.root.join parent))) := by
  refine ⟨exists_parent hroot hne, fun parent hparent => ?_⟩
  have hleads := leadsThrough_of_parent? hroot hexists hparent
  refine ⟨?_, fun hfile => ?_, fun hfile => ?_⟩
  · rw [find?_tree hroot, isSome_standing?_iff]
    exact .inr hleads
  · have hdirectory := (isDirectory_iff_not_hasFile hleads).mpr hfile
    obtain ⟨entries, hlist, hlisting⟩ := exists_list_tree hroot hdirectory
    rw [find?_tree hroot, standing?_eq_directory_iff]
    exact ⟨hdirectory, entries, hlist, (hlisting.listed_iff path).mpr ⟨hexists, hparent⟩⟩
  · have hdirectory : ¬ h.IsDirectory (h.place parent) := fun hdirectory =>
      (isDirectory_iff_not_hasFile hleads).mp hdirectory hfile
    refine ⟨?_, list_tree_eq_error hroot hdirectory⟩
    rw [Bool.eq_false_iff, ne_eq, any_isDirectory_find?_iff hroot]
    exact hdirectory

theorem parents_exist_fileThenDirectory :
    let h := fileThenDirectory
    (h.root.isAbsolute = true ∧ (h.tree.find? (.ofText "a/x")).isSome = true ∧
        h.place (.ofText "a/x") ≠ [.root]) ∧
      h.tree.find? (.ofText "a") = some .directory ∧
      ∃ entries, h.tree.list (.ofText "a") = .ok entries ∧
        ∃ entry ∈ entries, h.place entry.path = h.place (.ofText "a/x") := by
  intro h
  have hroot : h.root.isAbsolute = true := by decide
  have hexists : (h.tree.find? (.ofText "a/x")).isSome = true := by decide
  have hne : h.place (.ofText "a/x") ≠ [.root] := by decide
  have hlast : h.lastAt? (h.place (.ofText "a")) = some .directory := by decide
  have hfile : ¬ h.HasFile (h.place (.ofText "a")) := by
    rintro ⟨node, hnode, hdirectory⟩
    exact hdirectory (Option.some.inj (hnode.symm.trans hlast))
  obtain ⟨-, hparents⟩ := parents_exist hroot hexists hne
  obtain ⟨-, hlisted, -⟩ := hparents (.ofText "a") (by decide)
  exact ⟨⟨hroot, hexists, hne⟩, hlisted hfile⟩

/-- A file, and another below it. -/
def fileBelowFile : History where
  root := .ofText "/repo"
  additions := [⟨.ofText "a", .file []⟩, ⟨.ofText "a/b", .file []⟩]

/-- Not every existing path has a directory for its parent, and not every one is listed there. -/
theorem parent_not_directory :
    let h := fileBelowFile
    h.root.isAbsolute = true ∧ (h.tree.find? (.ofText "a/b")).isSome = true ∧
      Path.parent? (h.place (.ofText "a/b")) = some (h.place (.ofText "a")) ∧
      (h.tree.find? (.ofText "a")).any Node.isDirectory = false ∧
      h.tree.list (.ofText "a") = .error (.notADirectory (.ofText "/repo/a")) := by
  decide

end GoBuildRules.History
