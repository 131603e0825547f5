import GoBuildRules.Proofs.Constraint.FileName
import GoBuildRules.SourceFile.Basic

/-!
# What the name of a file says

The name of a file is its stem and its extension, which starts at the last dot (`IsExtension`). The
platform of the file comes from the last tokens of the stem alone, and its test mark counts only
where the extension is that of a Go file (`SourceFile.ofName_suffixes`).
-/

namespace GoBuildRules

theorem FileCategory.ofExtension_eq_go_iff {extension : String} :
    ofExtension extension = .go ↔ extension = ".go" := by
  constructor
  · intro h
    rw [ofExtension] at h
    split at h
    · assumption
    · repeat' (split at h; · cases h)
      cases h
  · rintro rfl
    rfl

/-- The extension of a name after its stem: nothing where the name has no dot, and otherwise its
last dot and what follows. -/
def IsExtension (stem extension : String) : Prop :=
  extension = "" ∧ '.' ∉ stem.toList ∨
    ∃ ending, extension = "." ++ ending ∧ '.' ∉ ending.toList

namespace SourceFile

variable {stem extension : String}

theorem splitExtension_of_isExtension (h : IsExtension stem extension) :
    splitExtension (stem ++ extension) = (stem, extension) := by
  have hall : ∀ {cs : List Char}, '.' ∉ cs → ∀ c ∈ cs.reverse, (c != '.') = true := by
    intro cs hcs c hc
    rw [bne_iff_ne]
    rintro rfl
    exact hcs (List.mem_reverse.mp hc)
  -- The name is read from its end, up to the last dot.
  rcases h with ⟨rfl, hstem⟩ | ⟨ending, rfl, hending⟩
  · have hnone : (stem.toList.reverse ++ []).dropWhile (· != '.') = [] :=
      List.dropWhile_append_of_pos (hall hstem)
    rw [List.append_nil] at hnone
    rw [String.append_empty]
    simp only [splitExtension, hnone]
  · have hreverse : (stem ++ ("." ++ ending)).toList.reverse =
        ending.toList.reverse ++ '.' :: stem.toList.reverse := by simp
    have hdrop : (ending.toList.reverse ++ '.' :: stem.toList.reverse).dropWhile (· != '.') =
        '.' :: stem.toList.reverse := by
      rw [List.dropWhile_append_of_pos (hall hending), List.dropWhile_cons_of_neg (by decide)]
    have htake : (ending.toList.reverse ++ '.' :: stem.toList.reverse).takeWhile (· != '.') =
        ending.toList.reverse := by
      rw [List.takeWhile_append_of_pos (hall hending), List.takeWhile_cons_of_neg (by decide),
        List.append_nil]
    simp only [splitExtension, hreverse, hdrop, htake, List.reverse_reverse, String.ofList_toList]
    exact congrArg (Prod.mk stem) (String.toList_inj.mp (by simp))

theorem isExtension_go (stem : String) : IsExtension stem ".go" :=
  .inr ⟨"go", rfl, by decide⟩

theorem splitExtension_go (stem : String) : splitExtension (stem ++ ".go") = (stem, ".go") :=
  splitExtension_of_isExtension (isExtension_go stem)

theorem isTest_ofName_iff_of_isExtension (dir : Path) (h : IsExtension stem extension) :
    (ofName dir (stem ++ extension)).isTest = true ↔
      extension = ".go" ∧ (NameParts.ofStem stem).isTest = true := by
  simp only [ofName, splitExtension_of_isExtension h, Bool.and_eq_true, decide_eq_true_iff,
    FileCategory.ofExtension_eq_go_iff]
  exact and_comm

open NameParts Platform in
/-- **Constraints of a file name come from its suffixes alone.** A stem of one token says nothing,
but for the test mark at its end, and the first token of a longer one may be any other. The last
tokens before the mark are the platform: a system and then an architecture name both, an
architecture and then a system only the system, a system alone the system, and an architecture alone
itself with the system before it, if that stands after another token; a last token of another kind
names nothing. A stem has the test mark when it ends in the token `test` after another one, and one
such token is taken for the mark. A file has what its name without the last extension says, and the
test mark only with the extension of Go files. -/
theorem ofName_suffixes :
    (∀ stem isTest, '_' ∉ stem.toList →
      ofStem stem = {} ∧ ofStem (stem ++ testMark isTest) = { isTest }) ∧
    (∀ first other, '_' ∉ first.toList → '_' ∉ other.toList → ∀ rest,
      ofStem (first ++ "_" ++ rest) = ofStem (other ++ "_" ++ rest)) ∧
    (∀ s o a isTest, isSystem o = true → isArchitecture a = true →
      ofStem (s ++ "_" ++ o ++ "_" ++ a ++ testMark isTest) = ⟨isTest, some o, some a⟩ ∧
      ofStem (s ++ "_" ++ a ++ "_" ++ o ++ testMark isTest) = ⟨isTest, some o, none⟩ ∧
      ofStem (s ++ "_" ++ o ++ testMark isTest) = ⟨isTest, some o, none⟩ ∧
      ((∀ base system, isSystem system = true → s ≠ base ++ "_" ++ system) →
        ofStem (s ++ "_" ++ a ++ testMark isTest) = ⟨isTest, none, some a⟩)) ∧
    (∀ s token isTest, '_' ∉ token.toList → isSystem token = false → isArchitecture token = false →
      (isTest = true ∨ token ≠ "test") →
      ofStem (s ++ "_" ++ token ++ testMark isTest) = { isTest }) ∧
    (∀ stem, (ofStem stem).isTest = true ↔ ∃ base, stem = base ++ "_test") ∧
    ∀ (dir : Path) (stem extension : String), IsExtension stem extension →
      let file := ofName dir (stem ++ extension)
      let parts := ofStem stem
      file.constraints = { system := parts.system, architecture := parts.architecture } ∧
        (file.isTest = true ↔ extension = ".go" ∧ parts.isTest = true) := by
  refine ⟨fun stem isTest h => ⟨ofStem_of_not_mem h, ofStem_of_notMem h⟩,
    fun first other hfirst hother rest => ofStem_first hfirst hother rest, ?_, ?_,
    fun stem => isTest_ofStem_iff, ?_⟩
  · intro s o a isTest ho ha
    -- A last token decides whatever stands before it, so the first two cases are cases of these.
    have hsystem : ∀ base, ofStem (base ++ "_" ++ o ++ testMark isTest) = ⟨isTest, some o, none⟩ :=
      fun base => by
        rw [ofStem_append base (underscore_notMem_of_isSystem ho) (.inr (ne_test_of_isSystem ho)),
          platformOf_of_isSystem base ho]
    have harchitecture : ∀ base, ofStem (base ++ "_" ++ a ++ testMark isTest) =
        ⟨isTest, (platformOf (a :: tokens base)).1, (platformOf (a :: tokens base)).2⟩ :=
      fun base => ofStem_append base (underscore_notMem_of_isArchitecture ha)
        (.inr (ne_test_of_isArchitecture ha))
    refine ⟨?_, hsystem (s ++ "_" ++ a), hsystem s, fun hs => ?_⟩
    · rw [harchitecture, platformOf_of_isArchitecture ha ho]
    · rw [harchitecture, platformOf_of_isArchitecture_of_ne ha hs]
  · intro s token isTest htoken hsystem harchitecture hlast
    rw [ofStem_append s htoken hlast, platformOf_of_neither s hsystem harchitecture]
  · intro dir stem extension h
    refine ⟨?_, isTest_ofName_iff_of_isExtension dir h⟩
    simp only [ofName, splitExtension_of_isExtension h]

open NameParts in
theorem ofName_suffixes_linuxTest :
    let stem := "a" ++ "_" ++ "linux" ++ "_" ++ "arm64" ++ testMark true
    let file := ofName (.ofText "/repo") (stem ++ ".go")
    stem ++ ".go" = "a_linux_arm64_test.go" ∧
      file.constraints = { system := some "linux", architecture := some "arm64" } ∧
      file.isTest = true ∧
      ofStem ("linux" ++ "_" ++ "arm64") = ofStem ("b" ++ "_" ++ "arm64") ∧
      ofStem ("linux" ++ "_" ++ "arm64" ++ testMark false) = ⟨false, none, some "arm64"⟩ := by
  intro stem file
  obtain ⟨-, hfirst, hplatforms, -, hmark, hname⟩ := ofName_suffixes
  have hstem : ofStem stem = ⟨true, some "linux", some "arm64"⟩ :=
    (hplatforms "a" "linux" "arm64" true (by decide) (by decide)).1
  obtain ⟨hconstraints, htest⟩ := hname (.ofText "/repo") stem ".go" (isExtension_go stem)
  have hlone : ∀ base system, Platform.isSystem system = true →
      "linux" ≠ base ++ "_" ++ system := by
    intro base system _ heq
    have hmem : '_' ∈ "linux".toList := by
      rw [heq]
      simp
    exact absurd hmem (by decide)
  refine ⟨by decide, ?_, htest.mpr ⟨rfl, ?_⟩, hfirst "linux" "b" (by decide) (by decide) "arm64",
    (hplatforms "linux" "linux" "arm64" false (by decide) (by decide)).2.2.2 hlone⟩
  · rw [hconstraints, hstem]
  · rw [hstem]

end SourceFile

end GoBuildRules
