import GoBuildRules.Text.Split

/-!
# Cutting at a known marker

A text is cut at the marker that was put into it, as long as the marker starts nowhere before
(`cutAt_eq_some`). So the parts that a marker joins are the chunks of the text again, when its
second character is in none of them (`chunks_intercalate`).
-/

namespace GoBuildRules.Text

variable {marker before : List Char} {c : Char}

theorem after?_eq_none_iff {start cs : List Char} : after? start cs = none ↔ ¬ start <+: cs := by
  rw [Option.eq_none_iff_forall_ne_some]
  exact ⟨fun h ⟨rest, hrest⟩ => h rest (after?_eq_some_iff.mpr hrest.symm),
    fun h rest hrest => h ⟨rest, (after?_eq_some_iff.mp hrest).symm⟩⟩

/-- A text is cut at the first place where the marker starts. -/
theorem cutAt_eq_some {rest : List Char} (hmarker : marker ≠ [])
    (h : ∀ part, part <:+ before → part ≠ [] → ¬ marker <+: part ++ (marker ++ rest)) :
    cutAt marker (before ++ (marker ++ rest)) = some (before, rest) := by
  induction before with
  | nil =>
    obtain ⟨m, ms, rfl⟩ := List.exists_cons_of_ne_nil hmarker
    have hafter : after? (m :: ms) (m :: (ms ++ rest)) = some rest := after?_eq_some_iff.mpr rfl
    rw [List.nil_append, List.cons_append, cutAt, hafter]
  | cons b before ih =>
    have hafter : after? marker (b :: (before ++ (marker ++ rest))) = none :=
      after?_eq_none_iff.mpr (h (b :: before) List.suffix_rfl (List.cons_ne_nil _ _))
    have hlater := ih fun part hpart => h part (hpart.trans (List.suffix_cons _ _))
    rw [List.cons_append, cutAt, hafter, hlater]
    rfl

/-- A text is cut at the first of a character. -/
theorem cutAt_singleton (h : c ∉ before) (rest : List Char) :
    cutAt [c] (before ++ c :: rest) = some (before, rest) := by
  refine cutAt_eq_some (List.cons_ne_nil _ _) fun part hpart hne hprefix => ?_
  obtain ⟨d, part, rfl⟩ := List.exists_cons_of_ne_nil hne
  obtain rfl : c = d := (List.cons_prefix_cons.mp hprefix).1
  exact h (hpart.subset List.mem_cons_self)

/-- A text is cut where the marker first stands, so it stands nowhere before the cut. -/
theorem not_infix_of_cutAt {cs rest : List Char} (hmarker : marker ≠ [])
    (h : cutAt marker cs = some (before, rest)) : ¬ marker <:+: before := by
  induction cs generalizing before with
  | nil =>
    obtain ⟨r, -, heq⟩ := Option.map_eq_some_iff.mp h
    rw [← (Prod.mk.inj heq).1]
    exact fun hinfix => hmarker (List.infix_nil.mp hinfix)
  | cons d cs ih =>
    have hcs := eq_append_of_cutAt h
    rw [cutAt] at h
    split at h
    · rw [← (Prod.mk.inj (Option.some.inj h)).1]
      exact fun hinfix => hmarker (List.infix_nil.mp hinfix)
    · rename_i hafter
      obtain ⟨⟨tail, r⟩, htail, heq⟩ := Option.map_eq_some_iff.mp h
      obtain ⟨rfl, rfl⟩ := Prod.mk.inj heq
      intro hinfix
      -- At the start the marker would have been found at once, and later by the cut of the rest.
      rcases List.infix_cons_iff.mp hinfix with hstart | hinfix
      · rw [hcs, List.append_assoc] at hafter
        exact after?_eq_none_iff.mp hafter (hstart.trans (List.prefix_append _ _))
      · exact ih htail hinfix

/-- A text that is not cut has the marker nowhere. -/
theorem not_infix_of_cutAt_eq_none {cs : List Char} (h : cutAt marker cs = none) :
    ¬ marker <:+: cs := by
  induction cs with
  | nil =>
    rw [List.infix_nil, ← List.prefix_nil]
    exact after?_eq_none_iff.mp (Option.map_eq_none_iff.mp h)
  | cons d cs ih =>
    rw [cutAt] at h
    split at h
    · cases h
    · rename_i hafter
      intro hinfix
      rcases List.infix_cons_iff.mp hinfix with hstart | hinfix
      · exact after?_eq_none_iff.mp hafter hstart
      · exact ih (Option.map_eq_none_iff.mp h) hinfix

theorem notMem_of_cutAt_singleton {cs rest : List Char} (h : cutAt [c] cs = some (before, rest)) :
    c ∉ before := fun hmem => by
  obtain ⟨first, later, rfl⟩ := List.append_of_mem hmem
  exact not_infix_of_cutAt (List.cons_ne_nil c []) h ⟨first, later, by simp⟩

/-- A text is cut at a marker whose first two characters differ and do not stand in a row before
it. -/
theorem cutAt_pair {d : Char} {tail : List Char} (hne : c ≠ d) (h : ¬ [c, d] <:+: before)
    (rest : List Char) :
    cutAt (c :: d :: tail) (before ++ c :: d :: (tail ++ rest)) = some (before, rest) := by
  refine cutAt_eq_some (List.cons_ne_nil _ _) fun part hpart hpart_ne hprefix => ?_
  match part, hpart_ne with
  | [e], _ =>
    -- The second character would be the first one of the marker after the part.
    have hsecond := (List.cons_prefix_cons.mp hprefix).2
    exact hne (List.cons_prefix_cons.mp hsecond).1.symm
  | e :: f :: part, _ =>
    obtain ⟨rfl, hsecond⟩ := List.cons_prefix_cons.mp hprefix
    obtain ⟨rfl, -⟩ := List.cons_prefix_cons.mp hsecond
    exact h ((List.prefix_append [c, d] part).isInfix.trans hpart.isInfix)

/-! ## Chunks -/

section Chunks

variable {d : Char} {tail piece : List Char} {pieces : List (List Char)}

theorem cutAt_eq_none (h : d ∉ piece) : cutAt (c :: d :: tail) piece = none := by
  refine Option.eq_none_iff_forall_ne_some.mpr fun ⟨before, rest⟩ hcut => h ?_
  rw [eq_append_of_cutAt hcut]
  simp

theorem chunks_of_cutAt_eq_none {cs : List Char} (h : cutAt marker cs = none) :
    chunks marker cs = [cs] := by
  rw [chunks]
  split
  · rfl
  · split
    · rfl
    · rename_i hsome
      rw [h] at hsome
      cases hsome

theorem chunks_of_cutAt_eq_some {cs rest : List Char} (hmarker : marker ≠ [])
    (h : cutAt marker cs = some (before, rest)) :
    chunks marker cs = before :: chunks marker rest := by
  rw [chunks, dif_neg hmarker]
  split
  · rename_i hnone
    rw [h] at hnone
    cases hnone
  · rename_i hsome
    rw [h] at hsome
    obtain ⟨rfl, rfl⟩ := Prod.mk.inj (Option.some.inj hsome)
    rfl

/-- Parts that are joined by a marker are its chunks again. -/
theorem chunks_intercalate (hne : c ≠ d) (hpieces : pieces ≠ [])
    (h : ∀ piece ∈ pieces, d ∉ piece) :
    chunks (c :: d :: tail) ((c :: d :: tail).intercalate pieces) = pieces := by
  induction pieces with
  | nil => exact absurd rfl hpieces
  | cons piece rest ih =>
    have hpiece : d ∉ piece := h piece List.mem_cons_self
    cases rest with
    | nil =>
      rw [List.intercalate_singleton]
      exact chunks_of_cutAt_eq_none (cutAt_eq_none hpiece)
    | cons next rest =>
      -- The second character of the marker is in no piece, so the first cut is after the first
      -- piece.
      have hapart : ¬ [c, d] <:+: piece := fun h => hpiece (h.subset (by simp))
      have hrest := ih (List.cons_ne_nil _ _) fun p hp => h p (List.mem_cons_of_mem _ hp)
      have hcut : cutAt (c :: d :: tail)
          (piece ++ (c :: d :: tail) ++ (c :: d :: tail).intercalate (next :: rest)) =
            some (piece, (c :: d :: tail).intercalate (next :: rest)) := by
        rw [List.append_assoc]
        exact cutAt_pair hne hapart _
      rw [List.intercalate_cons_of_ne_nil (List.cons_ne_nil _ _),
        chunks_of_cutAt_eq_some (List.cons_ne_nil _ _) hcut, hrest]

/-- A text that is more than one chunk has the marker in it. -/
theorem infix_of_chunks {cs : List Char} (h : ∀ whole, chunks marker cs ≠ [whole]) :
    marker <:+: cs := by
  have htext := intercalate_chunks marker cs
  match hchunks : chunks marker cs with
  | [] => exact absurd hchunks (chunks_ne_nil marker cs)
  | [whole] => exact absurd hchunks (h whole)
  | first :: next :: rest =>
    rw [hchunks, List.intercalate_cons_of_ne_nil (List.cons_ne_nil _ _)] at htext
    exact ⟨first, _, htext⟩

end Chunks

/-! ## Separators -/

/-- Parts that are joined by a separator are the parts between its occurrences again. -/
theorem splitAt_intercalate {parts : List String} (hne : parts ≠ [])
    (h : ∀ part ∈ parts, c ∉ part.toList) :
    splitAt c ((String.ofList [c]).intercalate parts) = parts := by
  have hlists : ∀ l ∈ parts.map String.toList, c ∉ l := by
    intro l hl
    obtain ⟨part, hpart, rfl⟩ := List.mem_map.mp hl
    exact h part hpart
  have hmap : parts.map String.toList ≠ [] := fun hnil => hne (List.map_eq_nil_iff.mp hnil)
  rw [splitAt, String.toList_intercalate, String.toList_ofList,
    List.splitOn_intercalate c hlists hmap, List.map_map]
  simp [Function.comp_def]

/-- Parts that are joined at a separator are separated there again. -/
theorem splitOnP_intercalate {p : Char → Bool} {c : Char} (hc : p c = true)
    {parts : List (List Char)} (hne : parts ≠ []) :
    ([c].intercalate parts).splitOnP p = parts.flatMap (·.splitOnP p) := by
  induction parts with
  | nil => exact absurd rfl hne
  | cons part parts ih =>
    cases parts with
    | nil => simp
    | cons next parts =>
      rw [List.intercalate_cons_cons, List.append_assoc, List.singleton_append,
        List.splitOnP_append_cons _ _ hc, ih (List.cons_ne_nil _ _)]
      exact List.flatMap_cons.symm

/-- The first part reaches to the first separator. -/
theorem head?_splitOn (c : Char) (cs : List Char) :
    (cs.splitOn c).head? = some (cs.takeWhile (· != c)) := by
  induction cs with
  | nil => rfl
  | cons d rest ih =>
    rw [List.splitOn_cons_eq_if_modifyHead, List.takeWhile_cons]
    by_cases h : d = c
    · simp [h]
    · simp [h, List.head?_modifyHead, ih]

/-- A text with a separator in it is cut there, and its halves on their own. -/
theorem splitAt_append_separator (c : Char) (s rest : String) :
    splitAt c (s ++ String.ofList [c] ++ rest) = splitAt c s ++ splitAt c rest := by
  have hlist : (s ++ String.ofList [c] ++ rest).toList = s.toList ++ c :: rest.toList := by simp
  have hcut : (s.toList ++ c :: rest.toList).splitOn c =
      s.toList.splitOn c ++ rest.toList.splitOn c :=
    List.splitOnP_append_cons _ _ (beq_self_eq_true c)
  rw [splitAt, hlist, hcut, List.map_append]
  rfl

/-- A text without separators is one part. -/
theorem splitAt_of_notMem {s : String} (h : c ∉ s.toList) : splitAt c s = [s] := by
  rw [splitAt, List.splitOn_eq_singleton h, List.map_singleton, String.ofList_toList]

/-- Parts that are not empty make a text that is not empty. -/
theorem intercalate_eq_empty_iff {separator : String} {parts : List String}
    (h : ∀ part ∈ parts, part ≠ "") : separator.intercalate parts = "" ↔ parts = [] := by
  constructor
  · intro hempty
    have hlist := congrArg String.toList hempty
    rw [String.toList_intercalate] at hlist
    match parts with
    | [] => rfl
    | [part] => exact absurd (String.toList_inj.mp (by simpa using hlist)) (h part (by simp))
    | part :: next :: parts =>
      rw [List.map_cons, List.map_cons, List.intercalate_cons_of_ne_nil (List.cons_ne_nil _ _)]
        at hlist
      obtain ⟨hpart, -⟩ := List.append_eq_nil_iff.mp (List.append_eq_nil_iff.mp hlist).1
      exact absurd (String.toList_inj.mp hpart) (h part List.mem_cons_self)
  · rintro rfl
    rfl

/-! ## Characters -/

/-- What holds of all characters of a text is tested on these alone. -/
instance decidableForallMem (cs : List Char) (P : Char → Prop) [DecidablePred P] :
    Decidable (∀ c ∈ cs, P c) :=
  List.decidableBAll P cs

/-- No part of a list that is cut at some elements holds one of them. -/
theorem eq_false_of_mem_splitOnP {α : Type} {p : α → Bool} {cs part : List α}
    (h : part ∈ cs.splitOnP p) : ∀ c ∈ part, p c = false := by
  induction cs generalizing part with
  | nil =>
    rw [List.splitOnP_nil, List.mem_singleton] at h
    simp [h]
  | cons c rest ih =>
    rw [List.splitOnP_cons_eq_if_modifyHead] at h
    split at h
    · rcases List.mem_cons.mp h with rfl | h
      · exact fun _ hc => absurd hc List.not_mem_nil
      · exact ih h
    · rename_i hc
      obtain ⟨first, others, hsplit⟩ := List.exists_cons_of_ne_nil (List.splitOnP_ne_nil p rest)
      rw [hsplit, List.modifyHead_cons] at h
      rcases List.mem_cons.mp h with rfl | h
      · have hfirst := ih (hsplit ▸ List.mem_cons_self)
        exact List.forall_mem_cons.mpr ⟨by simpa using hc, hfirst⟩
      · exact ih (hsplit ▸ List.mem_cons_of_mem _ h)

/-- A joined text has the characters of its parts. -/
theorem subset_intercalate {separator piece : List Char} {pieces : List (List Char)}
    (h : piece ∈ pieces) : piece ⊆ separator.intercalate pieces := by
  induction pieces with
  | nil => cases h
  | cons first rest ih =>
    cases rest with
    | nil =>
      rw [List.mem_singleton.mp h, List.intercalate_singleton]
      exact List.Subset.refl _
    | cons next rest =>
      rw [List.intercalate_cons_of_ne_nil (List.cons_ne_nil _ _)]
      rcases List.mem_cons.mp h with rfl | h
      · exact fun c hc => List.mem_append_left _ (List.mem_append_left _ hc)
      · exact fun c hc => List.mem_append_right _ (ih h hc)

theorem mem_of_mem_splitAt {s part : String} {d : Char} (h : part ∈ splitAt c s)
    (hd : d ∈ part.toList) : d ∈ s.toList := by
  obtain ⟨piece, hpiece, rfl⟩ := List.mem_map.mp h
  rw [String.toList_ofList] at hd
  have hjoin : [c].intercalate (s.toList.splitOn c) = s.toList := List.intercalate_splitOn ..
  exact hjoin ▸ subset_intercalate hpiece hd

theorem notMem_of_mem_splitAt {s part : String} (h : part ∈ splitAt c s) : c ∉ part.toList := by
  obtain ⟨piece, hpiece, rfl⟩ := List.mem_map.mp h
  rw [String.toList_ofList]
  exact fun hc => by simpa using eq_false_of_mem_splitOnP hpiece c hc

/-- A joined text has the characters of its parts and of what joins them. -/
theorem forall_mem_intercalate {P : Char → Prop} {separator : List Char}
    {pieces : List (List Char)} (hseparator : ∀ c ∈ separator, P c)
    (h : ∀ piece ∈ pieces, ∀ c ∈ piece, P c) : ∀ c ∈ separator.intercalate pieces, P c := by
  induction pieces with
  | nil => exact fun c hc => absurd hc List.not_mem_nil
  | cons piece rest ih =>
    have hrest := ih fun p hp => h p (List.mem_cons_of_mem _ hp)
    cases rest with
    | nil =>
      rw [List.intercalate_singleton]
      exact h piece List.mem_cons_self
    | cons next rest =>
      rw [List.intercalate_cons_of_ne_nil (List.cons_ne_nil _ _)]
      simp only [List.mem_append]
      rintro c ((hc | hc) | hc)
      · exact h piece List.mem_cons_self c hc
      · exact hseparator c hc
      · exact hrest c hc

end GoBuildRules.Text
