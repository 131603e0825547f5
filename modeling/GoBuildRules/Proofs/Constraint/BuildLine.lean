import Mathlib.Data.Finset.Dedup
import GoBuildRules.Constraint.BuildLine
import GoBuildRules.Proofs.Fold

/-!
# What build lines mean

The meaning of a build line does not depend on an order: no factor of the line may start with `!!`,
and some alternative must have only factors that are satisfied (`Factor.IsSatisfied`).

* `holds_iff`: a line holds exactly when this is so.
* `holds_iff_alternatives`: for this the line counts as a set of sets of factors.
* `holds_meaning`: so a line holds with its alternatives and factors in any order and any number,
  and tags that it does not mention do not matter.
-/

namespace GoBuildRules.BuildLine

/-! ## Factors -/

/-- Whether the tag is `go`, one digit, a dot and at least one digit. -/
def IsRelease (tag : String) : Prop :=
  ∃ major minor, tag.toList = 'g' :: 'o' :: major :: '.' :: minor ∧
    major.isDigit = true ∧ minor ≠ [] ∧ ∀ d ∈ minor, d.isDigit = true

theorem isReleaseTag_iff {tag : String} : isReleaseTag tag = true ↔ IsRelease tag := by
  unfold isReleaseTag IsRelease
  split
  · rename_i major minor heq
    simp only [heq, Bool.and_eq_true, Bool.not_eq_true', List.isEmpty_eq_false_iff,
      List.all_eq_true]
    constructor
    · rintro ⟨⟨hmajor, hne⟩, hminor⟩
      exact ⟨major, minor, rfl, hmajor, hne, hminor⟩
    · rintro ⟨_, _, h, hmajor, hne, hminor⟩
      cases h
      exact ⟨⟨hmajor, hne⟩, hminor⟩
  · rename_i hne
    simp only [Bool.false_eq_true, false_iff]
    rintro ⟨major, minor, h, -⟩
    exact hne major minor h

/-- Whether a factor spoils its line: its text starts with `!!`. -/
def Spoils (text : List Char) : Prop :=
  ['!', '!'] <+: text

instance (text : List Char) : Decidable (Spoils text) :=
  inferInstanceAs (Decidable (['!', '!'] <+: text))

namespace Factor

/-- The factor with the text, of which one `!` in front is not part of the tag. -/
def ofText (text : List Char) : Factor :=
  if text.head? = some '!' then ⟨true, String.ofList text.tail⟩ else ⟨false, String.ofList text⟩

/-- Whether the factor holds: for a release always, and else when the membership of its tag differs
from its being negated. -/
def IsSatisfied (tags : TagSet) (factor : Factor) : Prop :=
  IsRelease factor.tag ∨ (factor.tag ∈ tags ↔ ¬ factor.negated = true)

theorem holds_iff {tags : TagSet} {factor : Factor} :
    factor.holds tags = true ↔ factor.IsSatisfied tags := by
  rw [holds, IsSatisfied, Bool.or_eq_true, isReleaseTag_iff, ← StringSet.contains_eq_true]
  cases factor.negated <;> cases tags.contains factor.tag <;> simp

/-- Only a factor that spoils the line is not read. -/
theorem parse?_eq (text : List Char) :
    parse? text = if Spoils text then none else some (ofText text) := by
  unfold parse?
  split
  · rename_i rest
    rw [if_pos ⟨rest, rfl⟩]
  · rename_i tag hne
    have hspoils : ¬ Spoils ('!' :: tag) := by
      rintro ⟨rest, h⟩
      exact hne rest (List.cons.inj h).2.symm
    rw [if_neg hspoils]
    rfl
  · rename_i hne hnegated
    have hspoils : ¬ Spoils text := by
      rintro ⟨rest, rfl⟩
      exact hnegated _ rfl
    have hhead : text.head? ≠ some '!' := by
      intro h
      obtain ⟨rest, rfl⟩ := List.head?_eq_some_iff.mp h
      exact hnegated rest rfl
    rw [if_neg hspoils, ofText, if_neg hhead]

end Factor

/-! ## Lines -/

/-- The alternatives of a line, each as the texts of its factors. -/
def groups (line : String) : List (List (List Char)) :=
  (Text.fields line.toList).map fun group => group.splitOn ','

/-- The alternatives of a line, whatever their order and number and that of their factors. -/
def alternatives (line : String) : Finset (Finset (List Char)) :=
  ((groups line).map List.toFinset).toFinset

/-- The tags of the factors of a line. -/
def mentioned (line : String) : List String :=
  (groups line).flatten.map fun text => (Factor.ofText text).tag

variable {line : String} {tags : TagSet}

/-- A line is read unless a factor spoils it. -/
theorem parse?_eq (line : String) :
    parse? line =
      if ∃ group ∈ groups line, ∃ text ∈ group, Spoils text then none
      else some ((groups line).map fun group => group.map Factor.ofText) := by
  have hgroup : ∀ group : List (List Char), group.mapM Factor.parse? =
      if ∃ text ∈ group, Spoils text then none else some (group.map Factor.ofText) :=
    Fold.mapM_eq_ite Factor.parse?_eq
  rw [← Fold.mapM_eq_ite hgroup, groups, List.mapM_map]
  rfl

/-- A line holds when no factor spoils it and some alternative has only factors that hold. -/
theorem holds_iff :
    holds line tags = true ↔
      (∀ group ∈ groups line, ∀ text ∈ group, ¬ Spoils text) ∧
        ∃ group ∈ groups line, ∀ text ∈ group, (Factor.ofText text).IsSatisfied tags := by
  rw [holds, parse?_eq]
  by_cases hspoils : ∃ group ∈ groups line, ∃ text ∈ group, Spoils text
  · rw [if_pos hspoils]
    simp only [Bool.false_eq_true, false_iff, not_and]
    obtain ⟨group, hgroup, text, htext, h⟩ := hspoils
    exact fun hnone => absurd h (hnone group hgroup text htext)
  · rw [if_neg hspoils]
    simp only [List.any_map, List.any_eq_true, Function.comp_apply, List.all_map, List.all_eq_true,
      Factor.holds_iff]
    push Not at hspoils
    exact (and_iff_right hspoils).symm

/-- For the meaning of a line, its alternatives are a set of sets of factors. -/
theorem holds_iff_alternatives :
    holds line tags = true ↔
      (∀ group ∈ alternatives line, ∀ text ∈ group, ¬ Spoils text) ∧
        ∃ group ∈ alternatives line, ∀ text ∈ group, (Factor.ofText text).IsSatisfied tags := by
  rw [holds_iff]
  simp only [alternatives, List.mem_toFinset, List.mem_map, forall_exists_index, and_imp,
    forall_apply_eq_imp_iff₂, exists_exists_and_eq_and]

/-- A factor holds alike for tag sets that agree on its tag. -/
theorem Factor.isSatisfied_congr {factor : Factor} {other : TagSet}
    (h : factor.tag ∈ tags ↔ factor.tag ∈ other) :
    factor.IsSatisfied tags ↔ factor.IsSatisfied other := by
  rw [IsSatisfied, IsSatisfied, h]

/-- Only the tags that a line mentions matter to it. -/
theorem holds_congr {other : TagSet} (h : ∀ tag ∈ mentioned line, tag ∈ tags ↔ tag ∈ other) :
    holds line tags = holds line other := by
  rw [Bool.eq_iff_iff, holds_iff, holds_iff]
  refine and_congr_right fun _ => ?_
  refine exists_congr fun group => and_congr_right fun hgroup => ?_
  refine forall_congr' fun text => forall_congr' fun htext => ?_
  have hmem : text ∈ (groups line).flatten := List.mem_flatten.mpr ⟨group, hgroup, htext⟩
  exact Factor.isSatisfied_congr (h _ (List.mem_map_of_mem hmem))

/-- **A build line means what its alternatives say.** It holds exactly when no factor starts with
`!!` and all factors of some alternative hold. So the order and the number of alternatives and of
factors do not matter, nor do tags that the line does not mention. -/
theorem holds_meaning (line : String) (tags : TagSet) :
    (holds line tags = true ↔
      (∀ group ∈ groups line, ∀ text ∈ group, ¬ Spoils text) ∧
        ∃ group ∈ groups line, ∀ text ∈ group, (Factor.ofText text).IsSatisfied tags) ∧
      (∀ other, alternatives other = alternatives line → holds other tags = holds line tags) ∧
      ∀ other : TagSet, (∀ tag ∈ mentioned line, tag ∈ tags ↔ tag ∈ other) →
        holds line tags = holds line other := by
  refine ⟨holds_iff, fun other h => ?_, fun _ => holds_congr⟩
  rw [Bool.eq_iff_iff, holds_iff_alternatives, h, ← holds_iff_alternatives]

theorem holds_meaning_twoAlternatives :
    let line := "linux,!go1.8 !cgo,arm"
    let reordered := "arm,!cgo,arm\t !go1.8,linux  arm,!cgo"
    let tags : TagSet := StringSet.ofList ["linux"]
    let more : TagSet := StringSet.ofList ["amd64", "linux"]
    alternatives reordered = alternatives line ∧
      holds reordered tags = holds line tags ∧
      (∀ tag ∈ mentioned line, tag ∈ tags ↔ tag ∈ more) ∧
      holds line tags = holds line more := by
  intro line reordered tags more
  have halternatives : alternatives reordered = alternatives line := by decide +kernel
  have hagree : ∀ tag ∈ mentioned line, tag ∈ tags ↔ tag ∈ more := by
    have hcontains : ∀ tag ∈ mentioned line, tags.contains tag = more.contains tag := by
      decide +kernel
    intro tag htag
    rw [← StringSet.contains_eq_true, hcontains tag htag, StringSet.contains_eq_true]
  obtain ⟨-, hreorder, hcongr⟩ := holds_meaning line tags
  exact ⟨halternatives, hreorder reordered halternatives, hagree, hcongr more hagree⟩

end GoBuildRules.BuildLine
