import GoBuildRules.Proofs.FileTree.Join
import GoBuildRules.Proofs.Text.Cut
import GoBuildRules.Proofs.Text.Utf8

/-!
# File names

A name is a step of its own between slashes (`Path.IsName`). The names in the components of a path
are such bytes. So are the bytes of the text that a name reads as (`IsName.encode_lossyText`), and
the path of such a text in a directory has it as its file name (`fileName?_join`).
-/

namespace GoBuildRules

namespace Path

/-- Whether the bytes can be the name of a file. -/
def IsName (spelling : List UInt8) : Prop :=
  slash ∉ spelling ∧ Component.ofSegment? spelling = some (.name spelling)

variable {spelling : List UInt8} {text : String}

theorem isName_iff : IsName spelling ↔
    slash ∉ spelling ∧ spelling ≠ [] ∧ spelling ≠ [dot] ∧ spelling ≠ [dot, dot] := by
  rw [IsName, Component.ofSegment?]
  split
  · rename_i hnone
    rcases hnone with rfl | rfl <;> simp
  · rename_i hsome
    rw [not_or] at hsome
    split
    · simp [*]
    · simp [*]

theorem IsName.ne_nil (h : IsName spelling) : spelling ≠ [] :=
  (isName_iff.mp h).2.1

/-- A name reads as a text whose bytes are a name again, for a slash or a dot is shown only where
there is one. -/
theorem IsName.encode_lossyText (h : IsName spelling) :
    IsName (Utf8.encode (Utf8.lossyText spelling)) := by
  obtain ⟨hslash, hempty, hdot, hdots⟩ := isName_iff.mp h
  have hread : ∀ s : String, '\uFFFD' ∉ s.toList → spelling ≠ Utf8.encode s →
      Utf8.encode (Utf8.lossyText spelling) ≠ Utf8.encode s := fun s hs hne heq =>
    hne (Utf8.eq_encode_of_lossyText hs (Utf8.encode_inj.mp heq))
  refine isName_iff.mpr ⟨fun hmem => hslash ?_, hread "" (by decide) hempty,
    hread "." (by decide) hdot, hread ".." (by decide) hdots⟩
  obtain ⟨c, hc, hbyte⟩ := List.mem_flatMap.mp hmem
  have hc_slash : c = '/' := by
    have htoNat : slash.toNat = c.toNat := Utf8.toNat_eq_of_mem_utf8EncodeChar hbyte (by decide)
    rw [← Char.ofNat_toNat c, ← htoNat]
    rfl
  subst hc_slash
  exact Utf8.mem_of_mem_lossyText (by decide) hc slash (by decide)

theorem slash_not_mem_of_mem_splitOn {bytes segment : List UInt8}
    (h : segment ∈ bytes.splitOn slash) : slash ∉ segment := fun hmem => by
  simpa using Text.eq_false_of_mem_splitOnP h slash hmem

/-- The names among the components of a path can be names of files. -/
theorem isName_of_mem_components {p : Path} (h : .name spelling ∈ p.components) :
    IsName spelling := by
  rcases List.mem_append.mp h with hstart | hsteps
  · rw [startOf] at hstart
    split at hstart
    · simp at hstart
    · split at hstart <;> simp at hstart
  · obtain ⟨segment, hsegment, hname⟩ := List.mem_filterMap.mp hsteps
    have hspelling : spelling = segment := by
      simp only [Component.ofSegment?] at hname
      split at hname
      · cases hname
      · split at hname
        · cases hname
        · exact (Component.name.inj (Option.some.inj hname)).symm
    subst hspelling
    exact ⟨slash_not_mem_of_mem_splitOn hsegment, hname⟩

theorem fileName?_eq_some_iff {p : Path} :
    p.fileName? = some text ↔
      ∃ spelling, p.components.getLast? = some (.name spelling) ∧
        Utf8.lossyText spelling = text := by
  rw [fileName?]
  split
  · rename_i hlast
    simp [hlast]
  · rename_i hlast
    refine iff_of_false nofun ?_
    rintro ⟨spelling, hname, -⟩
    exact hlast spelling hname

/-- The bytes of a file name that is shown are a name. -/
theorem isName_encode_of_fileName? {p : Path} (h : p.fileName? = some text) :
    IsName (Utf8.encode text) := by
  obtain ⟨spelling, hlast, rfl⟩ := fileName?_eq_some_iff.mp h
  exact (isName_of_mem_components (List.mem_of_getLast? hlast)).encode_lossyText

/-! ## Files in a directory -/

theorem IsName.isAbsolute_eq_false (h : IsName spelling) : isAbsolute ⟨spelling⟩ = false :=
  decide_eq_false fun hhead => h.1 (List.mem_of_head? hhead)

/-- A name on its own is its only step. -/
theorem IsName.stepsOf_eq (h : IsName spelling) : stepsOf spelling = [.name spelling] := by
  rw [stepsOf, List.splitOn_eq_singleton h.1, List.filterMap_cons_some h.2, List.filterMap_nil]

/-- A name that is taken from a directory is the last component. -/
theorem getLast?_components_join (dir : Path) (h : IsName spelling) :
    (dir.join ⟨spelling⟩).components.getLast? = some (.name spelling) := by
  by_cases hdir : dir.bytes = []
  · rw [join_of_bytes_eq_nil hdir, components, h.stepsOf_eq, List.getLast?_concat]
  · rw [components_join h.isAbsolute_eq_false hdir, h.stepsOf_eq, List.getLast?_concat]

/-- The path of a name in a directory has it as its file name. -/
theorem fileName?_join (dir : Path) (h : IsName (Utf8.encode text)) :
    (dir.join (.ofText text)).fileName? = some text :=
  fileName?_eq_some_iff.mpr ⟨_, getLast?_components_join dir h, Utf8.lossyText_encode text⟩

end Path

end GoBuildRules
