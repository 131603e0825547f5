/-!
# What folds and traversals collect

Files, flags and platforms are added one after the other by folds. What one addition does to an
observation of the state says what the whole fold does to it. Lines and factors are read one after
the other by traversals, which fail when one of them cannot be read.
-/

namespace GoBuildRules.Fold

section Fold

variable {σ α β : Type} {f : σ → α → σ}

/-- When every step keeps what holds and adds `Q` of its item, the fold adds `Q` of some item. -/
theorem foldl_iff {P : σ → Prop} {Q : α → Prop} (h : ∀ s a, P (f s a) ↔ P s ∨ Q a)
    (items : List α) (start : σ) :
    P (items.foldl f start) ↔ P start ∨ ∃ a ∈ items, Q a := by
  induction items generalizing start with
  | nil => simp
  | cons a rest ih =>
    rw [List.foldl_cons, ih, h, or_assoc]
    simp only [List.mem_cons, exists_eq_or_imp]

/-- What no step changes the fold does not change. -/
theorem foldl_eq {g : σ → β} (h : ∀ s a, g (f s a) = g s) (items : List α) (start : σ) :
    g (items.foldl f start) = g start := by
  induction items generalizing start with
  | nil => rfl
  | cons a rest ih => rw [List.foldl_cons, ih, h]

end Fold

section Traversal

variable {α β ε : Type}

/-- A traversal that fails for some items fails when one of them is there. -/
theorem mapM_eq_ite {p : α → Prop} [DecidablePred p] {f : α → Option β} {g : α → β}
    (h : ∀ a, f a = if p a then none else some (g a)) (l : List α) :
    l.mapM f = if ∃ a ∈ l, p a then none else some (l.map g) := by
  induction l with
  | nil => simp
  | cons a l ih =>
    rw [List.mapM_cons, h, ih]
    by_cases ha : p a
    · simp [ha]
    · by_cases hl : ∃ a ∈ l, p a <;> simp [ha, hl]

theorem mapM_cons_eq_ok {f : α → Except ε β} {a : α} {l : List α} {out : List β}
    (h : (a :: l).mapM f = .ok out) :
    ∃ b rest, out = b :: rest ∧ f a = .ok b ∧ l.mapM f = .ok rest := by
  rw [List.mapM_cons] at h
  cases ha : f a with
  | error e =>
    rw [ha] at h
    cases h
  | ok b =>
    cases hl : l.mapM f with
    | error e =>
      rw [ha, hl] at h
      cases h
    | ok rest =>
      rw [ha, hl] at h
      exact ⟨b, rest, (Except.ok.inj h).symm, rfl, rfl⟩

/-- What a traversal gives comes from one of the items. -/
theorem exists_of_mem_mapM {f : α → Except ε β} {l : List α} {out : List β}
    (h : l.mapM f = .ok out) {b : β} (hb : b ∈ out) : ∃ a ∈ l, f a = .ok b := by
  induction l generalizing out with
  | nil =>
    cases h
    cases hb
  | cons a l ih =>
    obtain ⟨first, rest, rfl, ha, hl⟩ := mapM_cons_eq_ok h
    rcases List.mem_cons.mp hb with rfl | hb
    · exact ⟨a, List.mem_cons_self, ha⟩
    · obtain ⟨a', ha', hf⟩ := ih hl hb
      exact ⟨a', List.mem_cons_of_mem _ ha', hf⟩

/-- What an item gives is among what the traversal gives. -/
theorem exists_mem_of_mapM {f : α → Except ε β} {l : List α} {out : List β}
    (h : l.mapM f = .ok out) {a : α} (ha : a ∈ l) : ∃ b ∈ out, f a = .ok b := by
  induction l generalizing out with
  | nil => cases ha
  | cons first l ih =>
    obtain ⟨b, rest, rfl, hb, hl⟩ := mapM_cons_eq_ok h
    rcases List.mem_cons.mp ha with rfl | ha
    · exact ⟨b, List.mem_cons_self, hb⟩
    · obtain ⟨b', hb', hf⟩ := ih hl ha
      exact ⟨b', List.mem_cons_of_mem _ hb', hf⟩

/-- The error of a traversal is that of one of the items. -/
theorem exists_of_mapM_eq_error {f : α → Except ε β} {l : List α} {e : ε}
    (h : l.mapM f = .error e) : ∃ a ∈ l, f a = .error e := by
  induction l with
  | nil => cases h
  | cons a l ih =>
    rw [List.mapM_cons] at h
    -- The first item fails, or the traversal of the others does.
    cases ha : f a with
    | error e' =>
      rw [ha] at h
      obtain rfl : e' = e := Except.error.inj h
      exact ⟨a, List.mem_cons_self, ha⟩
    | ok b =>
      cases hl : l.mapM f with
      | error e' =>
        rw [ha, hl] at h
        obtain ⟨a', ha', hf⟩ := ih (hl.trans h)
        exact ⟨a', List.mem_cons_of_mem _ ha', hf⟩
      | ok rest =>
        rw [ha, hl] at h
        cases h

/-- A traversal fails when one of the items does. -/
theorem exists_mapM_eq_error_iff {f : α → Except ε β} {l : List α} :
    (∃ e, l.mapM f = .error e) ↔ ∃ a ∈ l, ∃ e, f a = .error e := by
  constructor
  · rintro ⟨e, h⟩
    obtain ⟨a, ha, hf⟩ := exists_of_mapM_eq_error h
    exact ⟨a, ha, e, hf⟩
  · rintro ⟨a, ha, e, hf⟩
    cases hl : l.mapM f with
    | error e' => exact ⟨e', rfl⟩
    | ok out =>
      obtain ⟨b, -, hb⟩ := exists_mem_of_mapM hl ha
      rw [hf] at hb
      cases hb

end Traversal

end GoBuildRules.Fold
