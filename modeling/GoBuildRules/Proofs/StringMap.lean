import GoBuildRules.StringMap

/-!
# Lookups in maps from strings

* `mem_keys_iff`: the keys are those at which the map has a value.
* `get?_ofList`: the map of a list of entries gives the last entry of a key, and with distinct keys
  (`get?_ofList_eq_some_iff`) every entry.
* `get?_ofList_map_key`: renaming the keys by an injective function moves every value along.
-/

namespace GoBuildRules.StringMap

variable {α : Type}

theorem mem_keys_iff {map : StringMap α} {key : String} :
    key ∈ map.keys ↔ ∃ value, map.get? key = some value := by
  simp only [keys, List.mem_map, Prod.exists, exists_and_right, exists_eq_right, mem_toList_iff]

/-- A value of the map is the value of some key. -/
theorem mem_values_iff {map : StringMap α} {value : α} :
    value ∈ map.values ↔ ∃ key, map.get? key = some value := by
  simp only [values, List.mem_map, Prod.exists, exists_eq_right, mem_toList_iff]

theorem isEmpty_iff {map : StringMap α} : map.isEmpty = true ↔ ∀ key, map.get? key = none := by
  rw [isEmpty, List.isEmpty_iff]
  constructor
  · intro h key
    simp [get?, h]
  · intro h
    refine List.eq_nil_iff_forall_not_mem.mpr fun entry hmem => ?_
    have hget := mem_toList_iff.mp hmem
    rw [h entry.1] at hget
    cases hget

/-- Of several entries with one key the last counts. -/
theorem get?_ofList (entries : List (String × α)) (key : String) :
    (ofList entries).get? key = entries.reverse.lookup key := by
  have general : ∀ map : StringMap α,
      (entries.foldl (fun map entry => map.insert entry.1 entry.2) map).get? key =
        (entries.reverse.lookup key).or (map.get? key) := by
    induction entries with
    | nil => intro map; simp
    | cons entry rest ih =>
      intro map
      obtain ⟨k, v⟩ := entry
      rw [List.foldl_cons, ih, get?_insert, List.reverse_cons, List.lookup_append, Option.or_assoc]
      by_cases h : key = k
      · simp [h]
      · have hne : (key == k) = false := by simpa using h
        simp [List.lookup_cons, hne, h]
  have := general empty
  rwa [show (empty : StringMap α).get? key = none from rfl, Option.or_none] at this

/-- The map of a list of entries gives nothing but entries. -/
theorem mem_of_get?_ofList {entries : List (String × α)} {key : String} {value : α}
    (h : (ofList entries).get? key = some value) : (key, value) ∈ entries := by
  rw [get?_ofList] at h
  obtain ⟨before, after, heq, -⟩ := List.lookup_eq_some_iff.mp h
  have hmem : (key, value) ∈ entries.reverse := by
    rw [heq]
    exact List.mem_append_right _ List.mem_cons_self
  exact List.mem_reverse.mp hmem

/-- A function that is applied to the values of entries is applied to those of their map. -/
theorem ofList_map {β : Type} (f : α → β) (entries : List (String × α)) :
    ofList (entries.map fun (key, value) => (key, f value)) = (ofList entries).mapValues f := by
  refine ext_get? fun key => ?_
  rw [get?_mapValues, get?_ofList, get?_ofList, ← List.map_reverse]
  induction entries.reverse with
  | nil => rfl
  | cons entry rest ih =>
    obtain ⟨k, v⟩ := entry
    rw [List.map_cons, List.lookup_cons, List.lookup_cons, ih]
    cases key == k <;> rfl

/-- In a list of entries with distinct keys a lookup finds every entry. -/
theorem lookup_eq_some_iff_mem {entries : List (String × α)} (h : (entries.map Prod.fst).Nodup)
    {key : String} {value : α} : entries.lookup key = some value ↔ (key, value) ∈ entries := by
  induction entries with
  | nil => simp
  | cons entry rest ih =>
    obtain ⟨k, v⟩ := entry
    rw [List.map_cons, List.nodup_cons] at h
    rw [List.lookup_cons, List.mem_cons, Prod.mk.injEq]
    by_cases hk : key = k
    · subst hk
      simp only [beq_self_eq_true, Option.some.injEq, true_and]
      constructor
      · rintro rfl
        exact .inl rfl
      · rintro (rfl | hmem)
        · rfl
        · exact absurd (List.mem_map_of_mem hmem) h.1
    · have hne : (key == k) = false := by simpa using hk
      simp [hne, hk, ih h.2]

theorem get?_ofList_eq_some_iff {entries : List (String × α)}
    (h : (entries.map Prod.fst).Nodup) {key : String} {value : α} :
    (ofList entries).get? key = some value ↔ (key, value) ∈ entries := by
  have hrev : (entries.reverse.map Prod.fst).Nodup := by
    rw [List.map_reverse]
    exact List.pairwise_reverse.mpr (h.imp Ne.symm)
  rw [get?_ofList, lookup_eq_some_iff_mem hrev, List.mem_reverse]

/-- Ascending strings are distinct. -/
theorem nodup_of_ascending {keys : List String} (h : keys.Pairwise (· < ·)) : keys.Nodup := by
  refine h.imp fun {a b} hlt heq => ?_
  subst heq
  exact String.lt_irrefl a hlt

theorem nodup_keys (map : StringMap α) : (map.toList.map Prod.fst).Nodup :=
  nodup_of_ascending map.ascending

/-- An injective renaming of the keys moves every value to the new name of its key. -/
theorem get?_ofList_map_key {f : String → String} (hf : ∀ a b, f a = f b → a = b)
    (map : StringMap α) (key : String) :
    (ofList (map.toList.map fun (key, value) => (f key, value))).get? (f key) = map.get? key := by
  have hnodup : ((map.toList.map fun (key, value) => (f key, value)).map Prod.fst).Nodup := by
    rw [List.map_map]
    exact List.Pairwise.map _ (fun _ _ hne heq => hne (hf _ _ heq))
      (List.pairwise_map.mp (nodup_keys map))
  apply Option.ext
  intro value
  rw [get?_ofList_eq_some_iff hnodup, ← mem_toList_iff, List.mem_map]
  constructor
  · rintro ⟨⟨k, v⟩, hmem, heq⟩
    obtain ⟨hk, rfl⟩ := Prod.mk.inj heq
    rwa [← hf _ _ hk]
  · intro hmem
    exact ⟨(key, value), hmem, rfl⟩

end GoBuildRules.StringMap
