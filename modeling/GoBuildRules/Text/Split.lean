/-!
# Cutting text

Cuts at a separator character (`splitAt`), at the first occurrence of a marker (`cutAt`) and at
every occurrence of a marker (`chunks`), and the tests for how a text starts and ends.

Cutting loses nothing but the separators: `intercalate_splitAt` and `intercalate_chunks` say that
the parts, joined again, are the text.
-/

namespace GoBuildRules.Text

/-- The parts between the occurrences of `separator`; one part when there is none. -/
def splitAt (separator : Char) (s : String) : List String :=
  (s.toList.splitOn separator).map String.ofList

/-- The parts joined by the separator are the text. -/
theorem intercalate_splitAt (separator : Char) (s : String) :
    (String.ofList [separator]).intercalate (splitAt separator s) = s := by
  apply String.toList_inj.mp
  rw [String.toList_intercalate]
  simp [splitAt, List.map_map, Function.comp_def, List.intercalate_splitOn]

theorem splitAt_ne_nil (separator : Char) (s : String) : splitAt separator s ≠ [] := by
  simp [splitAt, List.splitOn_ne_nil]

/-- What follows `start` in `cs`, when `cs` starts with it. -/
def after? (start cs : List Char) : Option (List Char) :=
  if start.isPrefixOf cs then some (cs.drop start.length) else none

theorem after?_eq_some_iff {start cs rest : List Char} :
    after? start cs = some rest ↔ cs = start ++ rest := by
  simp only [after?, Option.ite_none_right_eq_some, List.isPrefixOf_iff_prefix,
    Option.some.injEq]
  constructor
  · rintro ⟨⟨t, rfl⟩, rfl⟩
    simp
  · rintro rfl
    simp

/-- Whether `s` starts with `start`. -/
def startsWith (start s : String) : Bool :=
  start.toList.isPrefixOf s.toList

/-- Whether `s` ends with `ending`. -/
def endsWith (ending s : String) : Bool :=
  ending.toList.isSuffixOf s.toList

/-- What follows `start` in `s`, when `s` starts with it. -/
def dropStart? (start s : String) : Option String :=
  (after? start.toList s.toList).map String.ofList

/-- What precedes `ending` in `s`, when `s` ends with it. -/
def dropEnd? (ending s : String) : Option String :=
  (after? ending.toList.reverse s.toList.reverse).map fun rest => String.ofList rest.reverse

theorem dropStart?_eq_some_iff {start s rest : String} :
    dropStart? start s = some rest ↔ s = start ++ rest := by
  simp only [dropStart?, Option.map_eq_some_iff, after?_eq_some_iff]
  constructor
  · rintro ⟨cs, h, rfl⟩
    exact String.toList_inj.mp (by simpa using h)
  · rintro rfl
    exact ⟨rest.toList, by simp, String.ofList_toList⟩

theorem dropEnd?_eq_some_iff {ending s rest : String} :
    dropEnd? ending s = some rest ↔ s = rest ++ ending := by
  simp only [dropEnd?, Option.map_eq_some_iff, after?_eq_some_iff]
  constructor
  · rintro ⟨cs, h, rfl⟩
    refine String.toList_inj.mp ?_
    simpa using congrArg List.reverse h
  · rintro rfl
    exact ⟨rest.toList.reverse, by simp, by simp⟩

/-- The text before the first occurrence of `marker` and the text after it. -/
def cutAt (marker : List Char) : List Char → Option (List Char × List Char)
  | [] => (after? marker []).map fun rest => ([], rest)
  | c :: cs =>
    match after? marker (c :: cs) with
    | some rest => some ([], rest)
    | none => (cutAt marker cs).map fun (before, rest) => (c :: before, rest)

/-- A cut takes out one marker and keeps all else in order. -/
theorem eq_append_of_cutAt {marker cs before rest : List Char}
    (h : cutAt marker cs = some (before, rest)) : cs = before ++ marker ++ rest := by
  induction cs generalizing before with
  | nil =>
    obtain ⟨r, hr, heq⟩ := Option.map_eq_some_iff.mp h
    simp only [Prod.mk.injEq] at heq
    obtain ⟨rfl, rfl⟩ := heq
    simpa using after?_eq_some_iff.mp hr
  | cons c cs ih =>
    simp only [cutAt] at h
    split at h
    · rename_i r hr
      simp only [Option.some.injEq, Prod.mk.injEq] at h
      obtain ⟨rfl, rfl⟩ := h
      simpa using after?_eq_some_iff.mp hr
    · obtain ⟨⟨b, r⟩, hbr, heq⟩ := Option.map_eq_some_iff.mp h
      simp only [Prod.mk.injEq] at heq
      obtain ⟨rfl, rfl⟩ := heq
      simp [ih hbr]

/-- What follows a marker that is not empty is shorter than the whole. -/
theorem length_lt_of_cutAt {marker cs before rest : List Char} (hm : marker ≠ [])
    (h : cutAt marker cs = some (before, rest)) : rest.length < cs.length := by
  have := List.length_pos_iff.mpr hm
  rw [eq_append_of_cutAt h]
  simp only [List.length_append]
  omega

/-- The parts between the occurrences of a marker, which are found from left to right and do not
overlap. A text without the marker, or an empty marker, gives the text as the one part. -/
def chunks (marker cs : List Char) : List (List Char) :=
  if hm : marker = [] then [cs]
  else
    match h : cutAt marker cs with
    | none => [cs]
    | some (before, rest) =>
      have : rest.length < cs.length := length_lt_of_cutAt hm h
      before :: chunks marker rest
termination_by cs.length

theorem chunks_ne_nil (marker cs : List Char) : chunks marker cs ≠ [] := by
  rw [chunks]
  split
  · simp
  · split <;> simp

/-- The chunks joined by the marker are the text. -/
theorem intercalate_chunks (marker cs : List Char) :
    marker.intercalate (chunks marker cs) = cs := by
  fun_induction chunks marker cs with
  | case1 => simp
  | case2 => simp
  | case3 cs hm before rest h _ ih =>
    rw [List.intercalate_cons_of_ne_nil (chunks_ne_nil marker rest), ih, eq_append_of_cutAt h]

end GoBuildRules.Text
