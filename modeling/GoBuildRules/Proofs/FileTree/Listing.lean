import Mathlib.Data.List.Sort
import GoBuildRules.Proofs.FileTree.Name

/-!
# Listings of directories

A listing has the entries of a tree that lie in a directory, in the order of entries
(`pairwise_list`): by ascending names, and where two names read alike by the last steps of their
paths. No step comes twice in it, since no path stands in a tree twice (`eq_of_lastStep_eq`). Names
may come twice, for the bytes of two names can read alike.
-/

namespace GoBuildRules

namespace Component

variable {a b c : Component}

theorem lt_def : a < b ↔ a.rank < b.rank ∨ a.rank = b.rank ∧ a.bytes < b.bytes := Iff.rfl

theorem lt_irrefl (a : Component) : ¬ a < a := by
  rw [lt_def]
  rintro (h | ⟨-, h⟩)
  · exact Nat.lt_irrefl _ h
  · exact List.lt_irrefl _ h

theorem lt_trans (hab : a < b) (hbc : b < c) : a < c := by
  rw [lt_def] at *
  rcases hab with hab | ⟨hab, hbytes⟩
  · rcases hbc with hbc | ⟨hbc, -⟩
    · exact .inl (Nat.lt_trans hab hbc)
    · exact .inl (hbc ▸ hab)
  · rcases hbc with hbc | ⟨hbc, hbytes'⟩
    · exact .inl (hab ▸ hbc)
    · exact .inr ⟨hab.trans hbc, List.lt_trans hbytes hbytes'⟩

/-- A step is known by its kind and its spelling. -/
theorem eq_of_rank_of_bytes (hrank : a.rank = b.rank) (hbytes : a.bytes = b.bytes) : a = b := by
  cases a <;> cases b <;> simp_all [rank, bytes]

theorem lt_of_ne_of_not_lt (hne : a ≠ b) (h : ¬ b < a) : a < b := by
  rw [lt_def] at *
  rcases Nat.lt_trichotomy a.rank b.rank with hrank | hrank | hrank
  · exact .inl hrank
  · refine .inr ⟨hrank, ?_⟩
    have hle : a.bytes ≤ b.bytes := List.not_lt.mp fun hlt => h (.inr ⟨hrank.symm, hlt⟩)
    refine Decidable.byContradiction fun hlt => hne (eq_of_rank_of_bytes hrank ?_)
    exact List.le_antisymm hle (List.not_lt.mp hlt)
  · exact absurd (.inl hrank) h

theorem name_lt_name {s t : List UInt8} : name s < name t ↔ s < t := by
  rw [lt_def]
  simp [rank, bytes]

end Component

namespace TreeEntry

/-! ## The order of entries -/

section Order

variable {a b c : TreeEntry}

theorem lt_def : a < b ↔ a.name < b.name ∨ a.name = b.name ∧ a.lastStep < b.lastStep := Iff.rfl

/-- The name shows the last step, when that is a name. -/
theorem name_eq_of_lastStep (entry : TreeEntry) :
    entry.name = match entry.lastStep with
      | .name spelling => Utf8.lossyText spelling
      | _ => "" := by
  rw [name, Path.fileName?, lastStep, key]
  cases entry.path.components.getLast? with
  | none => rfl
  | some last => cases last <;> rfl

theorem lt_trans (hab : a < b) (hbc : b < c) : a < c := by
  rw [lt_def] at *
  rcases hab with hab | ⟨hab, hstep⟩
  · rcases hbc with hbc | ⟨hbc, -⟩
    · exact .inl (String.lt_trans hab hbc)
    · exact .inl (hbc ▸ hab)
  · rcases hbc with hbc | ⟨hbc, hstep'⟩
    · exact .inl (hab ▸ hbc)
    · exact .inr ⟨hab.trans hbc, Component.lt_trans hstep hstep'⟩

/-- Entries that are in order differ in their last steps, for these decide the names. -/
theorem lastStep_ne_of_lt (h : a < b) : a.lastStep ≠ b.lastStep := by
  intro heq
  rcases lt_def.mp h with hname | ⟨-, hstep⟩
  · rw [name_eq_of_lastStep a, name_eq_of_lastStep b, heq] at hname
    exact String.lt_irrefl _ hname
  · exact Component.lt_irrefl _ (heq ▸ hstep)

theorem lt_of_lastStep_ne (hne : a.lastStep ≠ b.lastStep) (h : ¬ b < a) : a < b := by
  rw [lt_def] at *
  by_cases hname : a.name = b.name
  · exact .inr ⟨hname, Component.lt_of_ne_of_not_lt hne fun hstep => h (.inr ⟨hname.symm, hstep⟩)⟩
  · refine .inl (Decidable.byContradiction fun hlt => hname (String.le_antisymm ?_ ?_))
    · exact String.not_lt.mp fun hlt' => h (.inl hlt')
    · exact String.not_lt.mp hlt

theorem name_le_of_lt (h : a < b) : a.name ≤ b.name := by
  rcases lt_def.mp h with hname | ⟨hname, -⟩
  · exact String.not_lt.mp (String.lt_asymm hname)
  · exact hname ▸ String.le_refl _

instance : Std.Irrefl fun a b : TreeEntry => a < b :=
  ⟨fun _ h => lastStep_ne_of_lt h rfl⟩

instance : Std.Antisymm fun a b : TreeEntry => a < b :=
  ⟨fun _ _ hab hba => absurd rfl (lastStep_ne_of_lt (lt_trans hab hba))⟩

end Order

/-! ## Ascending listings -/

variable {entry other : TreeEntry} {l : List TreeEntry}

theorem mem_insertListed : other ∈ insertListed entry l ↔ other = entry ∨ other ∈ l := by
  induction l with
  | nil => simp [insertListed]
  | cons first rest ih =>
    rw [insertListed]
    split
    · rw [List.mem_cons, ih, List.mem_cons]
      exact or_left_comm
    · exact List.mem_cons

/-- An entry with a step of its own goes to its place in an ascending listing. -/
theorem pairwise_insertListed (hne : ∀ other ∈ l, other.lastStep ≠ entry.lastStep)
    (h : l.Pairwise (· < ·)) : (insertListed entry l).Pairwise (· < ·) := by
  induction l with
  | nil => simp [insertListed]
  | cons first rest ih =>
    obtain ⟨hfirst, hrest⟩ := List.pairwise_cons.mp h
    rw [insertListed]
    split
    · rename_i hlt
      refine List.pairwise_cons.mpr
        ⟨fun other hother => ?_, ih (fun other hother => hne other (.tail _ hother)) hrest⟩
      rcases mem_insertListed.mp hother with rfl | hother
      · exact hlt
      · exact hfirst other hother
    · rename_i hlt
      have hentry : entry < first := lt_of_lastStep_ne (hne first List.mem_cons_self).symm hlt
      refine List.pairwise_cons.mpr ⟨fun other hother => ?_, h⟩
      rcases List.mem_cons.mp hother with rfl | hother
      · exact hentry
      · exact lt_trans hentry (hfirst other hother)

theorem mem_foldr_insertListed : entry ∈ l.foldr insertListed [] ↔ entry ∈ l := by
  induction l with
  | nil => rfl
  | cons first rest ih => rw [List.foldr_cons, mem_insertListed, ih, List.mem_cons]

theorem pairwise_foldr_insertListed (h : l.Pairwise fun a b => a.lastStep ≠ b.lastStep) :
    (l.foldr insertListed []).Pairwise (· < ·) := by
  induction l with
  | nil => exact .nil
  | cons first rest ih =>
    obtain ⟨hfirst, hrest⟩ := List.pairwise_cons.mp h
    refine pairwise_insertListed (fun other hother => ?_) (ih hrest)
    exact (hfirst other (mem_foldr_insertListed.mp hother)).symm

/-- The path of an entry leads through its parent and ends in its last step. -/
theorem key_eq_of_parent? {k : List Component} (h : Path.parent? entry.key = some k) :
    entry.key = k ++ [entry.lastStep] := by
  rw [lastStep]
  cases hlast : entry.key.getLast? with
  | none =>
    rw [Path.parent?, hlast] at h
    cases h
  | some last =>
    have hk : entry.key.dropLast = k := by
      rw [Path.parent?, hlast] at h
      split at h
      · cases h
      · cases h
      · exact Option.some.inj h
    rw [Option.getD_some, ← hk, List.dropLast_append_getLast? last hlast]

/-! ## Entries with a name -/

theorem fileName?_eq_some_name (h : entry.name ≠ "") :
    entry.path.fileName? = some entry.name := by
  rw [name] at *
  cases hname : entry.path.fileName? with
  | none => exact absurd (by rw [hname]; rfl) h
  | some text => rfl

/-- The bytes of a name that is shown are those of a name. -/
theorem isName_name (h : entry.name ≠ "") : Path.IsName (Utf8.encode entry.name) :=
  Path.isName_encode_of_fileName? (fileName?_eq_some_name h)

end TreeEntry

namespace FileTree

variable {tree : FileTree} {dir : Path} {entries : List TreeEntry} {a b : TreeEntry}

/-- The entries of a listing ascend. -/
theorem pairwise_list (h : tree.list dir = .ok entries) : entries.Pairwise (· < ·) := by
  simp only [list] at h
  split at h
  · rw [← Except.ok.inj h]
    have hkeys : tree.entries.Pairwise fun a b => a.key ≠ b.key :=
      List.pairwise_map.mp tree.distinct
    refine TreeEntry.pairwise_foldr_insertListed ((hkeys.filter _).imp_of_mem ?_)
    intro a b ha hb hne hstep
    have ha := TreeEntry.key_eq_of_parent? (of_decide_eq_true (List.mem_filter.mp ha).2)
    have hb := TreeEntry.key_eq_of_parent? (of_decide_eq_true (List.mem_filter.mp hb).2)
    exact hne (by rw [ha, hb, hstep])
  · cases h

/-- The last step of an entry is its own. -/
theorem eq_of_lastStep_eq (h : entries.Pairwise (· < ·)) (ha : a ∈ entries) (hb : b ∈ entries)
    (hstep : a.lastStep = b.lastStep) : a = b := by
  induction h with
  | nil => cases ha
  | cons hfirst _ ih =>
    rcases List.mem_cons.mp ha with rfl | harest
    · rcases List.mem_cons.mp hb with rfl | hbrest
      · rfl
      · exact absurd hstep (TreeEntry.lastStep_ne_of_lt (hfirst b hbrest))
    · rcases List.mem_cons.mp hb with rfl | hbrest
      · exact absurd hstep.symm (TreeEntry.lastStep_ne_of_lt (hfirst a harest))
      · exact ih harest hbrest

end FileTree

end GoBuildRules
