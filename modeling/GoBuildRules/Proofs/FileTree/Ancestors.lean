import GoBuildRules.Proofs.FileTree.Spelling

/-!
# Ancestors of absolute paths

The components of an absolute path are the root and, after it, steps that have a spelling of their
own between slashes (`exists_components_eq`). So the paths that are spelled along its components
lead through its proper ancestors and nowhere else: their components are the beginnings of the
components of the path, without the path itself and without the empty beginning
(`exists_mem_ancestors_iff`).
-/

namespace GoBuildRules

open GoBuildRules.Path (slash dot)

/-- Whether the spelling of a component stands for it between two slashes. -/
def Component.IsStep (c : Component) : Prop :=
  slash ∉ c.bytes ∧ Component.ofSegment? c.bytes = some c

theorem Component.isStep_up : up.IsStep := by
  constructor <;> decide

/-- A step is a `..`, or a name that is not empty. -/
theorem Component.IsStep.cases {c : Component} (h : c.IsStep) :
    c = up ∨ ∃ spelling, c = name spelling ∧ Path.IsName spelling := by
  cases c with
  | root => exact absurd h.1 (by decide)
  | here => exact absurd h.2 (by decide)
  | up => exact .inl rfl
  | name spelling => exact .inr ⟨spelling, rfl, h⟩

namespace Path

variable {p q start : Path} {c : Component} {k steps : List Component}

theorem ne_nil_of_isAbsolute (h : p.isAbsolute = true) : p.bytes ≠ [] := by
  intro hempty
  rw [isAbsolute, hempty] at h
  cases h

/-- The components of an absolute path are the root and steps after it. -/
theorem exists_components_eq (h : p.isAbsolute = true) :
    ∃ steps, p.components = .root :: steps ∧ ∀ c ∈ steps, c.IsStep := by
  have hcomponents := components_of_isAbsolute h
  refine ⟨_, hcomponents, fun c hc => ?_⟩
  obtain ⟨step, -, rfl⟩ := List.mem_map.mp hc
  have hmem : Component.ofStep step ∈ p.components := hcomponents ▸ List.mem_cons_of_mem _ hc
  rw [Component.ofStep] at hmem ⊢
  split
  · exact Component.isStep_up
  · rename_i hstep
    rw [if_neg hstep] at hmem
    exact isName_of_mem_components hmem

/-- What is taken from an absolute path is absolute. -/
theorem isAbsolute_join (h : p.isAbsolute = true) (q : Path) : (p.join q).isAbsolute = true := by
  have happend : ∀ bytes, isAbsolute ⟨p.bytes ++ bytes⟩ = true := fun bytes => by
    rw [isAbsolute, List.head?_append_of_ne_nil _ (ne_nil_of_isAbsolute h)]
    exact h
  rw [join]
  split
  · assumption
  · split
    · exact happend q.bytes
    · exact happend (slash :: q.bytes)

/-- A step that is taken from a path adds itself to the components. -/
theorem components_join_step (hp : p.bytes ≠ []) (hc : c.IsStep) :
    (p.join ⟨c.bytes⟩).components = p.components ++ [c] := by
  have habsolute : isAbsolute ⟨c.bytes⟩ = false :=
    decide_eq_false fun hhead => hc.1 (List.mem_of_head? hhead)
  rw [components_join habsolute hp, stepsOf, List.splitOn_eq_singleton hc.1,
    List.filterMap_cons_some hc.2, List.filterMap_nil]

theorem isAbsolute_of_mem_along (h : start.isAbsolute = true) (hq : q ∈ along start steps) :
    q.isAbsolute = true := by
  induction steps generalizing start with
  | nil => cases hq
  | cons c steps ih =>
    have hnext := isAbsolute_join h ⟨c.bytes⟩
    rcases List.mem_cons.mp hq with rfl | hq
    · exact hnext
    · exact ih hnext hq

/-- A beginning that is not empty has the first element alone or goes on with the others. -/
theorem exists_prefix_cons_iff {α : Type} {a : α} {k base l : List α} :
    (k = base ++ [a] ∨ ∃ front, front ≠ [] ∧ front <+: l ∧ k = base ++ [a] ++ front) ↔
      ∃ front, front ≠ [] ∧ front <+: a :: l ∧ k = base ++ front := by
  constructor
  · rintro (rfl | ⟨front, -, hbegins, rfl⟩)
    · exact ⟨[a], List.cons_ne_nil _ _, List.prefix_append _ _, rfl⟩
    · exact ⟨a :: front, List.cons_ne_nil _ _, List.cons_prefix_cons.mpr ⟨rfl, hbegins⟩,
        List.append_assoc _ _ _⟩
  · rintro ⟨front, hne, hbegins, rfl⟩
    rcases List.prefix_cons_iff.mp hbegins with rfl | ⟨rest, rfl, hrest⟩
    · exact absurd rfl hne
    · cases rest with
      | nil => exact .inl rfl
      | cons b rest =>
        exact .inr ⟨b :: rest, List.cons_ne_nil _ _, hrest, (List.append_assoc _ [a] _).symm⟩

/-- The paths along steps lead through the beginnings of the steps that are not empty. -/
theorem exists_mem_along_iff (h : start.isAbsolute = true) (hsteps : ∀ c ∈ steps, c.IsStep) :
    (∃ q ∈ along start steps, q.components = k) ↔
      ∃ front, front ≠ [] ∧ front <+: steps ∧ k = start.components ++ front := by
  induction steps generalizing start with
  | nil =>
    simp only [along, List.not_mem_nil, false_and, exists_false, List.prefix_nil, false_iff]
    rintro ⟨front, hne, hnil, -⟩
    exact hne hnil
  | cons c steps ih =>
    have hnext := components_join_step (ne_nil_of_isAbsolute h) (hsteps c List.mem_cons_self)
    simp only [along, List.mem_cons, exists_eq_or_imp, hnext,
      ih (isAbsolute_join h _) fun d hd => hsteps d (.tail _ hd)]
    rw [eq_comm, exists_prefix_cons_iff]

/-- All components but the last are those of the parent. -/
theorem parent?_components (h : p.isAbsolute = true) (hne : p.components ≠ [.root]) :
    parent? p.components = some p.components.dropLast := by
  obtain ⟨steps, hcomponents, hsteps⟩ := exists_components_eq h
  rw [hcomponents] at hne ⊢
  have hsome : steps ≠ [] := fun hnil => hne (by rw [hnil])
  obtain ⟨front, last, rfl⟩ := (List.eq_nil_or_concat' steps).resolve_left hsome
  have hlast := (hsteps last (List.mem_append_right _ List.mem_cons_self)).cases
  rw [parent?, ← List.cons_append, List.getLast?_concat]
  rcases hlast with rfl | ⟨spelling, rfl, -⟩ <;> rfl

/-- The paths that lead to an absolute path are spelled along all its components but the last. -/
theorem ancestors_eq (h : p.isAbsolute = true) :
    p.ancestors = along ⟨[]⟩ p.components.dropLast := by
  rw [ancestors]
  by_cases hroot : p.components = [.root]
  · rw [hroot]
    rfl
  · rw [parent?_components h hroot, Option.getD_some]

theorem isAbsolute_of_mem_ancestors (h : p.isAbsolute = true) (hq : q ∈ p.ancestors) :
    q.isAbsolute = true := by
  obtain ⟨steps, hcomponents, -⟩ := exists_components_eq h
  rw [ancestors_eq h, hcomponents] at hq
  cases steps with
  | nil => cases hq
  | cons c steps =>
    rcases List.mem_cons.mp hq with rfl | hq
    · rfl
    · exact isAbsolute_of_mem_along rfl hq

/-- The beginnings of a list without its last element are the proper ones. -/
theorem prefix_dropLast_iff {α : Type} {k l : List α} (hl : l ≠ []) :
    k <+: l.dropLast ↔ k <+: l ∧ k ≠ l := by
  obtain ⟨front, last, rfl⟩ := (List.eq_nil_or_concat' l).resolve_left hl
  rw [List.dropLast_concat, List.prefix_concat_iff]
  constructor
  · intro h
    refine ⟨.inr h, fun heq => ?_⟩
    have hlength := h.length_le
    rw [heq, List.length_append, List.length_singleton] at hlength
    omega
  · rintro ⟨h, hne⟩
    exact h.resolve_left hne

/-- The ancestors of an absolute path lead through the beginnings of its components, but for the
empty one and the path itself. -/
theorem exists_mem_ancestors_iff (h : p.isAbsolute = true) :
    (∃ q ∈ p.ancestors, q.components = k) ↔ k ≠ [] ∧ k <+: p.components ∧ k ≠ p.components := by
  obtain ⟨steps, hcomponents, hsteps⟩ := exists_components_eq h
  rw [ancestors_eq h, hcomponents, ← prefix_dropLast_iff (List.cons_ne_nil _ _)]
  -- The root has no ancestors; below it they start with the root itself.
  cases steps with
  | nil =>
    simp only [List.dropLast_singleton, along, List.not_mem_nil, false_and, exists_false,
      List.prefix_nil, false_iff]
    rintro ⟨hne, hnil⟩
    exact hne hnil
  | cons c steps =>
    have hslash : (⟨[]⟩ : Path).join ⟨Component.root.bytes⟩ = ⟨[slash]⟩ := rfl
    have hroot : (⟨[slash]⟩ : Path).components = [] ++ [.root] := by decide
    have hfront : ∀ d ∈ (c :: steps).dropLast, d.IsStep := fun d hd =>
      hsteps d (List.dropLast_subset _ hd)
    have halong : (∃ q ∈ along ⟨[slash]⟩ (c :: steps).dropLast, q.components = k) ↔ _ :=
      exists_mem_along_iff rfl hfront
    rw [List.dropLast_cons_cons, along, hslash]
    simp only [List.mem_cons, exists_eq_or_imp, halong, hroot]
    rw [eq_comm, exists_prefix_cons_iff]
    constructor
    · rintro ⟨front, hne, hbegins, rfl⟩
      exact ⟨hne, hbegins⟩
    · rintro ⟨hne, hbegins⟩
      exact ⟨k, hne, hbegins, rfl⟩

end Path

end GoBuildRules
