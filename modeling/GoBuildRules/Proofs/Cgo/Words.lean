import GoBuildRules.Cgo.Words

/-!
# Plain words

Words without quotes and backslashes (`IsPlain`) are written as they are, with blanks between them:
blanks outside quotes are skipped (`scan_blanks`) and a run of plain characters is taken as it
stands (`scan_run`).
-/

namespace GoBuildRules.Words

variable {c : Char} {run word cs : List Char}

/-- A character that is no blank, no quote and no backslash. -/
def IsPlain (c : Char) : Prop :=
  c ≠ '\\' ∧ c ≠ '"' ∧ c ≠ '\'' ∧ Text.isBlank c = false

instance (c : Char) : Decidable (IsPlain c) :=
  inferInstanceAs (Decidable (_ ∧ _))

theorem scan_cons (h : c ≠ '\\') (hdouble : c ≠ '"') (hsingle : c ≠ '\'')
    (word : Option (List Char)) (cs : List Char) :
    scan none word (c :: cs) =
      if Text.isBlank c then (scan none none cs).map (word.toList ++ ·)
      else scan none (extend word c) cs := by
  have hquote : ¬ (c = '"' ∨ c = '\'') := by
    rintro (rfl | rfl)
    · exact hdouble rfl
    · exact hsingle rfl
  rw [scan]
  · simp only [if_neg hquote]
  · exact fun heq => absurd heq h
  · exact fun _ _ heq => absurd heq h

/-- Plain characters go to the word that has begun. -/
theorem scan_plain (h : ∀ c ∈ run, IsPlain c) (word cs : List Char) :
    scan none (some word) (run ++ cs) = scan none (some (word ++ run)) cs := by
  induction run generalizing word with
  | nil => rw [List.nil_append, List.append_nil]
  | cons c run ih =>
    obtain ⟨hbackslash, hdouble, hsingle, hblank⟩ := h c List.mem_cons_self
    have hrest := ih fun d hd => h d (List.mem_cons_of_mem _ hd)
    rw [List.cons_append, scan_cons hbackslash hdouble hsingle, hblank,
      if_neg Bool.false_ne_true, extend, Option.getD_some, hrest, List.append_assoc,
      List.singleton_append]

/-- A run of plain characters begins a word. -/
theorem scan_run (hne : run ≠ []) (h : ∀ c ∈ run, IsPlain c) (cs : List Char) :
    scan none none (run ++ cs) = scan none (some run) cs := by
  obtain ⟨c, run, rfl⟩ := List.exists_cons_of_ne_nil hne
  obtain ⟨hbackslash, hdouble, hsingle, hblank⟩ := h c List.mem_cons_self
  have hrest := scan_plain (fun d hd => h d (List.mem_cons_of_mem _ hd)) [c] cs
  rw [List.cons_append, scan_cons hbackslash hdouble hsingle, hblank, if_neg Bool.false_ne_true]
  exact hrest

/-- A blank ends the word that has begun, if one has. -/
theorem scan_blank (h : Text.isBlank c = true) (word : Option (List Char)) (cs : List Char) :
    scan none word (c :: cs) = (scan none none cs).map (word.toList ++ ·) := by
  have hne : ∀ d, Text.isBlank d = false → c ≠ d := by
    rintro d hd rfl
    rw [h] at hd
    cases hd
  rw [scan_cons (hne _ (by decide)) (hne _ (by decide)) (hne _ (by decide)), if_pos h]

theorem scan_blanks (h : ∀ c ∈ run, Text.isBlank c = true) (cs : List Char) :
    scan none none (run ++ cs) = scan none none cs := by
  induction run with
  | nil => rfl
  | cons c run ih =>
    rw [List.cons_append, scan_blank (h c List.mem_cons_self),
      ih fun d hd => h d (List.mem_cons_of_mem _ hd)]
    cases scan none none cs <;> rfl

end GoBuildRules.Words
