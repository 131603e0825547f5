/-!
# Finite sets of strings

A set is the strictly ascending list of its members, in the order of code points. So a walk over a
set has one order, and two sets with the same members are equal (`StringSet.ext_mem`).
-/

namespace GoBuildRules

/-- A finite set of strings. -/
structure StringSet where
  /-- The members, each once, in ascending order. -/
  toList : List String
  ascending : toList.Pairwise (· < ·)
  deriving DecidableEq

namespace StringSet

/-- Puts `s` into its place in an ascending list, unless it is there. -/
def insertAscending (s : String) : List String → List String
  | [] => [s]
  | t :: ts =>
    if s < t then s :: t :: ts
    else if s = t then t :: ts
    else t :: insertAscending s ts

theorem mem_insertAscending {s t : String} {l : List String} :
    t ∈ insertAscending s l ↔ t = s ∨ t ∈ l := by
  induction l with
  | nil => simp [insertAscending]
  | cons u us ih =>
    simp only [insertAscending]
    split
    · simp
    · split
      · rename_i _ h
        simp [h]
      · simp only [List.mem_cons, ih]
        exact or_left_comm

theorem pairwise_insertAscending (s : String) {l : List String} (h : l.Pairwise (· < ·)) :
    (insertAscending s l).Pairwise (· < ·) := by
  induction l with
  | nil => simp [insertAscending]
  | cons u us ih =>
    have hu := List.pairwise_cons.mp h
    simp only [insertAscending]
    split
    · rename_i hs
      refine List.pairwise_cons.mpr ⟨?_, h⟩
      intro t ht
      rcases List.mem_cons.mp ht with rfl | ht
      · exact hs
      · exact String.lt_trans hs (hu.1 t ht)
    · split
      · exact h
      · rename_i hs hne
        refine List.pairwise_cons.mpr ⟨?_, ih hu.2⟩
        intro t ht
        rcases mem_insertAscending.mp ht with rfl | ht
        · rcases String.le_total u t with hle | hle
          · exact Decidable.byContradiction fun hlt =>
              hne (String.le_antisymm (String.not_lt.mp hlt) hle)
          · exact absurd (String.le_antisymm hle (String.not_lt.mp hs)) hne
        · exact hu.1 t ht

theorem ascending_nil : ([] : List String).Pairwise (· < ·) :=
  List.Pairwise.nil

/-- The set without members. -/
def empty : StringSet := ⟨[], ascending_nil⟩

/-- The set with `s` added. -/
def insert (set : StringSet) (s : String) : StringSet :=
  ⟨insertAscending s set.toList, pairwise_insertAscending s set.ascending⟩

/-- The set of the strings of a list. -/
def ofList (l : List String) : StringSet :=
  l.foldr (fun s set => set.insert s) empty

/-- Whether `s` is a member. -/
def contains (set : StringSet) (s : String) : Bool :=
  set.toList.contains s

/-- Whether the set has no members. -/
def isEmpty (set : StringSet) : Bool :=
  set.toList.isEmpty

instance : Inhabited StringSet := ⟨empty⟩

instance : EmptyCollection StringSet := ⟨empty⟩

instance : Membership String StringSet := ⟨fun set s => s ∈ set.toList⟩

@[simp]
theorem mem_toList {set : StringSet} {s : String} : s ∈ set.toList ↔ s ∈ set := Iff.rfl

@[simp]
theorem not_mem_empty (s : String) : ¬ s ∈ (∅ : StringSet) := List.not_mem_nil

@[simp]
theorem mem_insert {set : StringSet} {s t : String} : t ∈ set.insert s ↔ t = s ∨ t ∈ set :=
  mem_insertAscending

@[simp]
theorem mem_ofList {l : List String} {s : String} : s ∈ ofList l ↔ s ∈ l := by
  induction l with
  | nil => simp [ofList, empty, ← mem_toList]
  | cons t ts ih =>
    have : ofList (t :: ts) = (ofList ts).insert t := rfl
    simp [this, ih]

@[simp]
theorem contains_eq_true {set : StringSet} {s : String} : set.contains s = true ↔ s ∈ set :=
  List.contains_iff_mem

/-- Two ascending lists with the same members are the same list. -/
theorem eq_of_pairwise_of_mem_iff {l m : List String} (hl : l.Pairwise (· < ·))
    (hm : m.Pairwise (· < ·)) (h : ∀ s, s ∈ l ↔ s ∈ m) : l = m := by
  induction l generalizing m with
  | nil =>
    cases m with
    | nil => rfl
    | cons t ts => exact absurd ((h t).mpr List.mem_cons_self) List.not_mem_nil
  | cons s ss ih =>
    cases m with
    | nil => exact absurd ((h s).mp List.mem_cons_self) List.not_mem_nil
    | cons t ts =>
      rw [List.pairwise_cons] at hl hm
      have hst : s = t := by
        rcases List.mem_cons.mp ((h s).mp List.mem_cons_self) with hs | hs
        · exact hs
        · rcases List.mem_cons.mp ((h t).mpr List.mem_cons_self) with ht | ht
          · exact ht.symm
          · exact absurd (hl.1 t ht) (String.lt_asymm (hm.1 s hs))
      subst hst
      congr 1
      refine ih hl.2 hm.2 fun u => ?_
      constructor
      · intro hu
        rcases List.mem_cons.mp ((h u).mp (List.mem_cons_of_mem _ hu)) with rfl | hu'
        · exact absurd (hl.1 u hu) (String.lt_irrefl u)
        · exact hu'
      · intro hu
        rcases List.mem_cons.mp ((h u).mpr (List.mem_cons_of_mem _ hu)) with rfl | hu'
        · exact absurd (hm.1 u hu) (String.lt_irrefl u)
        · exact hu'

/-- Sets with the same members are equal. -/
theorem ext_mem {a b : StringSet} (h : ∀ s, s ∈ a ↔ s ∈ b) : a = b := by
  obtain ⟨l, hl⟩ := a
  obtain ⟨m, hm⟩ := b
  have : l = m := eq_of_pairwise_of_mem_iff hl hm h
  subst this
  rfl

/-- A set is the set of its own members. -/
@[simp]
theorem ofList_toList (set : StringSet) : ofList set.toList = set :=
  ext_mem fun _ => mem_ofList

end StringSet

end GoBuildRules
