/-!
# Finite maps from strings

A map is the list of its entries in strictly ascending order of their keys. So a walk over a map
has one order, whatever the order in which the entries came, and two maps that give the same value
for every key are equal (`StringMap.ext_get?`).
-/

namespace GoBuildRules

/-- A finite map from strings to `α`. -/
structure StringMap (α : Type) where
  /-- The keys with their values, in ascending order of the keys. -/
  toList : List (String × α)
  ascending : (toList.map Prod.fst).Pairwise (· < ·)
  deriving DecidableEq

namespace StringMap

variable {α β : Type}

/-- Changes the value at `key` in an ascending list of entries; `change` is given the value that
was there, if there was one. -/
def alterAscending (key : String) (change : Option α → α) :
    List (String × α) → List (String × α)
  | [] => [(key, change none)]
  | (k, v) :: rest =>
    if key < k then (key, change none) :: (k, v) :: rest
    else if key = k then (k, change (some v)) :: rest
    else (k, v) :: alterAscending key change rest

theorem mem_keys_alterAscending {key k : String} {change : Option α → α}
    {l : List (String × α)} :
    k ∈ (alterAscending key change l).map Prod.fst ↔ k = key ∨ k ∈ l.map Prod.fst := by
  induction l with
  | nil => simp [alterAscending]
  | cons entry rest ih =>
    obtain ⟨k', v⟩ := entry
    simp only [alterAscending]
    split
    · simp
    · split
      · rename_i _ h
        simp [h]
      · simp only [List.map_cons, List.mem_cons, ih]
        exact or_left_comm

theorem pairwise_alterAscending (key : String) (change : Option α → α) {l : List (String × α)}
    (h : (l.map Prod.fst).Pairwise (· < ·)) :
    ((alterAscending key change l).map Prod.fst).Pairwise (· < ·) := by
  induction l with
  | nil => simp [alterAscending]
  | cons entry rest ih =>
    obtain ⟨k, v⟩ := entry
    rw [List.map_cons, List.pairwise_cons] at h
    simp only [alterAscending]
    split
    · rename_i hk
      refine List.pairwise_cons.mpr ⟨?_, List.pairwise_cons.mpr h⟩
      intro t ht
      rcases List.mem_cons.mp ht with rfl | ht
      · exact hk
      · exact String.lt_trans hk (h.1 t ht)
    · split
      · exact List.pairwise_cons.mpr h
      · rename_i hk hne
        refine List.pairwise_cons.mpr ⟨?_, ih h.2⟩
        intro t ht
        rcases mem_keys_alterAscending.mp ht with rfl | ht
        · exact Decidable.byContradiction fun hlt =>
            hne (String.le_antisymm (String.not_lt.mp hlt) (String.not_lt.mp hk))
        · exact h.1 t ht

theorem ascending_nil : (([] : List (String × α)).map Prod.fst).Pairwise (· < ·) :=
  List.Pairwise.nil

/-- The map without entries. -/
def empty : StringMap α := ⟨[], ascending_nil⟩

instance : Inhabited (StringMap α) := ⟨empty⟩

instance : EmptyCollection (StringMap α) := ⟨empty⟩

/-- The map with the value at `key` changed; `change` is given the value that was there, if there
was one. -/
def alter (map : StringMap α) (key : String) (change : Option α → α) : StringMap α :=
  ⟨alterAscending key change map.toList, pairwise_alterAscending key change map.ascending⟩

/-- The map with `value` at `key`, in place of what was there. -/
def insert (map : StringMap α) (key : String) (value : α) : StringMap α :=
  map.alter key fun _ => value

/-- The map of the entries of a list; of several entries with one key the last counts. -/
def ofList (entries : List (String × α)) : StringMap α :=
  entries.foldl (fun map (key, value) => map.insert key value) empty

/-- The value at `key`. -/
def get? (map : StringMap α) (key : String) : Option α :=
  map.toList.lookup key

/-- The keys, in ascending order. -/
def keys (map : StringMap α) : List String :=
  map.toList.map Prod.fst

/-- The values, in the order of their keys. -/
def values (map : StringMap α) : List α :=
  map.toList.map Prod.snd

/-- The number of entries. -/
def size (map : StringMap α) : Nat :=
  map.toList.length

/-- Whether the map has no entries. -/
def isEmpty (map : StringMap α) : Bool :=
  map.toList.isEmpty

/-- The map with `f` applied to every value. -/
def mapValues (f : α → β) (map : StringMap α) : StringMap β :=
  ⟨map.toList.map fun (key, value) => (key, f value), by
    simpa [List.map_map, Function.comp_def] using map.ascending⟩

/-- The entries whose values satisfy `p`. -/
def filterValues (p : α → Bool) (map : StringMap α) : StringMap α :=
  ⟨map.toList.filter fun (_, value) => p value,
    map.ascending.sublist (List.filter_sublist.map _)⟩

theorem lookup_alterAscending {key k : String} {change : Option α → α} {l : List (String × α)}
    (h : (l.map Prod.fst).Pairwise (· < ·)) :
    (alterAscending key change l).lookup k =
      if k = key then some (change (l.lookup k)) else l.lookup k := by
  induction l with
  | nil =>
    by_cases hk : k = key
    · simp [alterAscending, hk]
    · have hne : (k == key) = false := by simpa using hk
      simp [alterAscending, List.lookup_cons, hne, hk]
  | cons entry rest ih =>
    obtain ⟨k', v⟩ := entry
    rw [List.map_cons, List.pairwise_cons] at h
    -- The keys ascend, so a key that belongs before this entry is in none of the later ones.
    have absent : key < k' → rest.lookup key = none := by
      intro hlt
      refine List.lookup_eq_none_iff.mpr fun p hp => ?_
      have := String.lt_trans hlt (h.1 p.1 (List.mem_map_of_mem hp))
      simp only [bne_iff_ne, ne_eq]
      rintro rfl
      exact String.lt_irrefl _ this
    simp only [alterAscending]
    split
    · rename_i hlt
      by_cases hk : k = key
      · subst hk
        have hne : (k == k') = false := by
          simp only [beq_eq_false_iff_ne, ne_eq]
          rintro rfl
          exact String.lt_irrefl _ hlt
        simp [List.lookup_cons, hne, absent hlt]
      · have hne : (k == key) = false := by simpa using hk
        simp [List.lookup_cons, hne, hk]
    · split
      · rename_i _ heq
        subst heq
        by_cases hk : k = key
        · subst hk
          simp
        · have hne : (k == key) = false := by simpa using hk
          simp [List.lookup_cons, hne, hk]
      · rename_i _ hne
        by_cases hk : k = k'
        · subst hk
          simp [Ne.symm hne]
        · have hkne : (k == k') = false := by simpa using hk
          simp only [List.lookup_cons, hkne]
          exact ih h.2

@[simp]
theorem get?_empty (k : String) : (∅ : StringMap α).get? k = none := rfl

/-- A change at `key` shows at `key` and nowhere else. -/
theorem get?_alter (map : StringMap α) (key k : String) (change : Option α → α) :
    (map.alter key change).get? k = if k = key then some (change (map.get? k)) else map.get? k :=
  lookup_alterAscending map.ascending

@[simp]
theorem get?_insert (map : StringMap α) (key k : String) (value : α) :
    (map.insert key value).get? k = if k = key then some value else map.get? k :=
  get?_alter map key k fun _ => value

@[simp]
theorem get?_mapValues (f : α → β) (map : StringMap α) (k : String) :
    (map.mapValues f).get? k = (map.get? k).map f := by
  obtain ⟨l, h⟩ := map
  simp only [get?, mapValues]
  clear h
  induction l with
  | nil => rfl
  | cons entry rest ih =>
    obtain ⟨k', v⟩ := entry
    simp only [List.map_cons, List.lookup_cons]
    split <;> simp_all

/-- The entries are the pairs of a key and its value. -/
theorem mem_toList_iff {map : StringMap α} {k : String} {v : α} :
    (k, v) ∈ map.toList ↔ map.get? k = some v := by
  obtain ⟨l, h⟩ := map
  simp only [get?]
  induction l with
  | nil => simp
  | cons entry rest ih =>
    obtain ⟨k', v'⟩ := entry
    rw [List.map_cons, List.pairwise_cons] at h
    simp only [List.mem_cons, Prod.mk.injEq, List.lookup_cons]
    by_cases hk : k = k'
    · subst hk
      simp only [beq_self_eq_true, true_and, Option.some.injEq]
      constructor
      · rintro (rfl | hmem)
        · rfl
        · exact absurd (h.1 k (List.mem_map_of_mem hmem)) (String.lt_irrefl k)
      · rintro rfl
        exact Or.inl rfl
    · have hne : (k == k') = false := by simpa using hk
      simp [hk, hne, ih h.2]

/-- Ascending lists of entries with the same entries are the same list. -/
theorem eq_of_pairwise_of_mem_iff {l m : List (String × α)}
    (hl : (l.map Prod.fst).Pairwise (· < ·)) (hm : (m.map Prod.fst).Pairwise (· < ·))
    (h : ∀ e, e ∈ l ↔ e ∈ m) : l = m := by
  induction l generalizing m with
  | nil =>
    cases m with
    | nil => rfl
    | cons e es => exact absurd ((h e).mpr List.mem_cons_self) List.not_mem_nil
  | cons d ds ih =>
    cases m with
    | nil => exact absurd ((h d).mp List.mem_cons_self) List.not_mem_nil
    | cons e es =>
      rw [List.map_cons, List.pairwise_cons] at hl hm
      -- Each list starts with its least key, so they start with the same entry.
      have hde : d = e := by
        rcases List.mem_cons.mp ((h d).mp List.mem_cons_self) with hd | hd
        · exact hd
        · rcases List.mem_cons.mp ((h e).mpr List.mem_cons_self) with he | he
          · exact he.symm
          · exact absurd (hl.1 e.1 (List.mem_map_of_mem he))
              (String.lt_asymm (hm.1 d.1 (List.mem_map_of_mem hd)))
      subst hde
      congr 1
      refine ih hl.2 hm.2 fun u => ?_
      constructor
      · intro hu
        rcases List.mem_cons.mp ((h u).mp (List.mem_cons_of_mem _ hu)) with rfl | hu'
        · exact absurd (hl.1 u.1 (List.mem_map_of_mem hu)) (String.lt_irrefl u.1)
        · exact hu'
      · intro hu
        rcases List.mem_cons.mp ((h u).mpr (List.mem_cons_of_mem _ hu)) with rfl | hu'
        · exact absurd (hm.1 u.1 (List.mem_map_of_mem hu)) (String.lt_irrefl u.1)
        · exact hu'

/-- Maps that give the same value for every key are equal. -/
theorem ext_get? {a b : StringMap α} (h : ∀ k, a.get? k = b.get? k) : a = b := by
  have : a.toList = b.toList :=
    eq_of_pairwise_of_mem_iff a.ascending b.ascending fun (k, v) => by
      rw [mem_toList_iff, mem_toList_iff, h k]
  obtain ⟨l, hl⟩ := a
  obtain ⟨m, hm⟩ := b
  subst this
  rfl

/-- A filter on the values keeps the value of a key exactly when it satisfies the test. -/
@[simp]
theorem get?_filterValues (p : α → Bool) (map : StringMap α) (k : String) :
    (map.filterValues p).get? k = (map.get? k).filter p := by
  apply Option.ext
  intro v
  rw [← mem_toList_iff]
  simp [filterValues, mem_toList_iff, Option.filter_eq_some_iff]

end StringMap

end GoBuildRules
