/-!
# Ranges of code points

A property of characters is given as a list of closed ranges of code points in ascending order,
and `covered` searches it. `covered_eq_true_iff` says that the early end of the search loses
nothing as long as the ranges ascend.
-/

namespace GoBuildRules.Text

/-- Whether `n` lies in one of the ranges. The search ends at the first range above `n`. -/
def covered : List (Nat × Nat) → Nat → Bool
  | [], _ => false
  | (low, high) :: rest, n => !decide (n < low) && (decide (n ≤ high) || covered rest n)

/-- In ascending ranges the search finds exactly the numbers that some range holds. -/
theorem covered_eq_true_iff {ranges : List (Nat × Nat)}
    (ascending : ranges.Pairwise (fun a b => a.1 ≤ b.1)) {n : Nat} :
    covered ranges n = true ↔ ∃ r ∈ ranges, r.1 ≤ n ∧ n ≤ r.2 := by
  induction ranges with
  | nil => simp [covered]
  | cons r rest ih =>
    obtain ⟨low, high⟩ := r
    rw [List.pairwise_cons] at ascending
    simp only [covered, Bool.and_eq_true, Bool.not_eq_true', decide_eq_false_iff_not, Nat.not_lt,
      Bool.or_eq_true, decide_eq_true_eq, ih ascending.2, List.mem_cons, exists_eq_or_imp]
    constructor
    · rintro ⟨hl, hh | h⟩
      · exact Or.inl ⟨hl, hh⟩
      · exact Or.inr h
    · rintro (⟨hl, hh⟩ | ⟨s, hs, h⟩)
      · exact ⟨hl, Or.inl hh⟩
      · exact ⟨Nat.le_trans (ascending.1 s hs) h.1, Or.inr ⟨s, hs, h⟩⟩

end GoBuildRules.Text
