import GoBuildRules.Text.Utf8

/-!
# Reading back the bytes of a text

The bytes that a text is encoded as have no faults, and decoding them gives the text
(`decode_encode`), so the lossy reading of them loses nothing (`lossyText_encode`). Other bytes are
no text, and yet decoding loses none of them: the pieces, put together, are the bytes
(`flatMap_bytes_decode`). So a character other than U+FFFD that the lossy reading shows is there in
the bytes (`mem_of_mem_lossyText`), and bytes that read as a text without U+FFFD are those of the
text (`eq_encode_of_lossyText`).
-/

namespace GoBuildRules.Utf8

variable {low high : UInt8} {bits tails m n : Nat} {b : UInt8} {bytes rest : List UInt8}

/-- A further byte adds its lowest six bits. -/
theorem readTails_tail (hlow : low.toNat ≤ m % 64 + 128) (hhigh : m % 64 + 128 ≤ high.toNat) :
    readTails low high bits (tails + 1) (UInt8.ofNat (m % 64 + 128) :: bytes) =
      readTails 0x80 0xbf (bits * 64 + m % 64) tails bytes := by
  have htoNat : (UInt8.ofNat (m % 64 + 128)).toNat = m % 64 + 128 :=
    UInt8.toNat_ofNat_of_lt' (show m % 64 + 128 < 256 by omega)
  have hbits : (UInt8.ofNat (m % 64 + 128)).toNat % 64 = m % 64 := by omega
  have hrange : low ≤ UInt8.ofNat (m % 64 + 128) ∧ UInt8.ofNat (m % 64 + 128) ≤ high := by
    rw [UInt8.le_iff_toNat_le, UInt8.le_iff_toNat_le, htoNat]
    exact ⟨hlow, hhigh⟩
  rw [readTails, if_pos hrange, hbits]

theorem readTails_anyTail :
    readTails 0x80 0xbf bits (tails + 1) (UInt8.ofNat (m % 64 + 128) :: bytes) =
      readTails 0x80 0xbf (bits * 64 + m % 64) tails bytes := by
  have hlow : (0x80 : UInt8).toNat = 128 := rfl
  have hhigh : (0xbf : UInt8).toNat = 191 := rfl
  exact readTails_tail (by omega) (by omega)

theorem decode_cons {lead : Lead} (hlead : lead? b = some lead)
    (htails : readTails lead.low lead.high lead.bits lead.tails bytes = (some n, rest)) :
    decode (b :: bytes) = .char (Char.ofNat n) :: decode rest := by
  rw [decode]
  split
  · rename_i hnone
    rw [hlead] at hnone
    cases hnone
  · rename_i other hother
    obtain rfl := Option.some.inj (hlead.symm.trans hother)
    split
    rename_i value rest' hread
    rw [htails] at hread
    obtain ⟨rfl, rfl⟩ := Prod.mk.inj hread
    rfl

/-! ## The first byte of a character -/

section Lead

variable {k : Nat}

theorem lead?_ofNat_one (h : k ≤ 0x7f) :
    lead? (UInt8.ofNat k) = some { tails := 0, bits := k } := by
  have hk : (UInt8.ofNat k).toNat = k := UInt8.toNat_ofNat_of_lt' (show k < 256 by omega)
  rw [lead?, hk]
  exact if_pos (by omega)

theorem lead?_ofNat_two (hlow : 0xc2 ≤ k) (hhigh : k < 0xe0) :
    lead? (UInt8.ofNat k) = some { tails := 1, bits := k - 0xc0 } := by
  have hk : (UInt8.ofNat k).toNat = k := UInt8.toNat_ofNat_of_lt' (show k < 256 by omega)
  simp only [lead?, hk]
  rw [if_neg (by omega), if_neg (by omega), if_pos hhigh]

/-- The first of three bytes, and the range of the byte after it. -/
theorem exists_lead?_ofNat_three (hlow : 0xe0 ≤ k) (hhigh : k < 0xf0) :
    ∃ lead, lead? (UInt8.ofNat k) = some lead ∧ lead.tails = 2 ∧ lead.bits = k - 0xe0 ∧
      lead.low.toNat = (if k = 0xe0 then 0xa0 else 0x80) ∧
      lead.high.toNat = (if k = 0xed then 0x9f else 0xbf) := by
  have hk : (UInt8.ofNat k).toNat = k := UInt8.toNat_ofNat_of_lt' (show k < 256 by omega)
  simp only [lead?, hk]
  rw [if_neg (by omega), if_neg (by omega), if_neg (by omega)]
  by_cases hfirst : k = 0xe0
  · subst hfirst
    exact ⟨_, rfl, rfl, rfl, rfl, rfl⟩
  · rw [if_neg hfirst]
    by_cases hsurrogates : k = 0xed
    · subst hsurrogates
      exact ⟨_, rfl, rfl, rfl, rfl, rfl⟩
    · rw [if_neg hsurrogates, if_pos hhigh, if_neg hfirst, if_neg hsurrogates]
      exact ⟨_, rfl, rfl, rfl, rfl, rfl⟩

/-- The first of four bytes, and the range of the byte after it. -/
theorem exists_lead?_ofNat_four (hlow : 0xf0 ≤ k) (hhigh : k ≤ 0xf4) :
    ∃ lead, lead? (UInt8.ofNat k) = some lead ∧ lead.tails = 3 ∧ lead.bits = k - 0xf0 ∧
      lead.low.toNat = (if k = 0xf0 then 0x90 else 0x80) ∧
      lead.high.toNat = (if k = 0xf4 then 0x8f else 0xbf) := by
  obtain rfl | rfl | rfl | rfl | rfl : k = 0xf0 ∨ k = 0xf1 ∨ k = 0xf2 ∨ k = 0xf3 ∨ k = 0xf4 := by
    omega
  all_goals exact ⟨_, rfl, rfl, rfl, rfl, rfl⟩

end Lead

/-! ## Characters -/

/-- The bytes of a character are read as that character, whatever follows them. -/
theorem decode_utf8EncodeChar_append (c : Char) (bytes : List UInt8) :
    decode (String.utf8EncodeChar c ++ bytes) = .char c :: decode bytes := by
  obtain ⟨v, hv⟩ : ∃ v, c.val.toNat = v := ⟨_, rfl⟩
  have hchar : Char.ofNat v = c := by
    rw [← hv]
    exact Char.ofNat_toNat c
  have hvalid : v < 0xd800 ∨ 0xdfff < v ∧ v < 0x110000 := by
    rw [← hv]
    exact c.valid
  -- The cases follow the number of bytes. In the first byte after the lead `hvalid` keeps the code
  -- point out of the ranges that are overlong or surrogates.
  rw [String.utf8EncodeChar, hv, ← hchar]
  split
  · rename_i hone
    exact decode_cons (lead?_ofNat_one hone) rfl
  · split
    · rename_i hone htwo
      refine decode_cons (lead?_ofNat_two (by omega) (by omega)) ?_
      refine readTails_anyTail.trans ?_
      have hvalue : (v / 64 % 32 + 0xc0 - 0xc0) * 64 + v % 64 = v := by omega
      rw [readTails, hvalue]
      rfl
    · split
      · rename_i hone htwo hthree
        obtain ⟨lead, hlead, htails, hbits, hlow, hhigh⟩ :=
          exists_lead?_ofNat_three (k := v / 4096 % 16 + 224) (by omega) (by omega)
        refine decode_cons hlead ?_
        rw [htails, hbits]
        refine (readTails_tail ?_ ?_).trans (readTails_anyTail.trans ?_)
        · rw [hlow]
          split <;> omega
        · rw [hhigh]
          split <;> omega
        · have hvalue : ((v / 4096 % 16 + 0xe0 - 0xe0) * 64 + v / 64 % 64) * 64 + v % 64 = v := by
            omega
          rw [readTails, hvalue]
          rfl
      · rename_i hone htwo hthree
        obtain ⟨lead, hlead, htails, hbits, hlow, hhigh⟩ :=
          exists_lead?_ofNat_four (k := v / 262144 % 8 + 240) (by omega) (by omega)
        refine decode_cons hlead ?_
        rw [htails, hbits]
        refine (readTails_tail ?_ ?_).trans
          (readTails_anyTail.trans (readTails_anyTail.trans ?_))
        · rw [hlow]
          split <;> omega
        · rw [hhigh]
          split <;> omega
        · have hvalue : (((v / 262144 % 8 + 0xf0 - 0xf0) * 64 + v / 4096 % 64) * 64 +
              v / 64 % 64) * 64 + v % 64 = v := by omega
          rw [readTails, hvalue]
          rfl

theorem decode_encode (s : String) : decode (encode s) = s.toList.map .char := by
  rw [encode]
  induction s.toList with
  | nil => simp [decode]
  | cons c cs ih => rw [List.flatMap_cons, decode_utf8EncodeChar_append, ih, List.map_cons]

/-- The lossy reading of the bytes of a text loses nothing. -/
theorem lossyText_encode (s : String) : lossyText (encode s) = s := by
  rw [lossyText, decode_encode, List.map_map]
  exact (congrArg String.ofList (List.map_id s.toList)).trans String.ofList_toList

theorem encode_inj {s t : String} : encode s = encode t ↔ s = t := by
  refine ⟨fun h => ?_, congrArg encode⟩
  rw [← lossyText_encode s, h, lossyText_encode]

/-- A byte below 0x80 is the only one of its character. -/
theorem toNat_eq_of_mem_utf8EncodeChar {c : Char} (hb : b ∈ String.utf8EncodeChar c)
    (hlt : b.toNat < 0x80) : b.toNat = c.toNat := by
  have hmore : ∀ k, 0x80 ≤ k → k < 256 → b ≠ UInt8.ofNat k := by
    rintro k hlow hhigh rfl
    rw [UInt8.toNat_ofNat_of_lt' hhigh] at hlt
    omega
  rw [String.utf8EncodeChar] at hb
  split at hb
  · rename_i hone
    rw [List.mem_singleton.mp hb]
    exact UInt8.toNat_ofNat_of_lt' (Nat.lt_of_le_of_lt hone (by decide))
  · simp only [apply_ite (b ∈ ·), List.mem_cons, List.not_mem_nil, or_false] at hb
    split at hb
    · rcases hb with hb | hb <;> exact absurd hb (hmore _ (by omega) (by omega))
    · split at hb
      · rcases hb with hb | hb | hb <;> exact absurd hb (hmore _ (by omega) (by omega))
      · rcases hb with hb | hb | hb | hb <;> exact absurd hb (hmore _ (by omega) (by omega))

/-! ## What the pieces are made of -/

/-- What remains is an end of the bytes. -/
theorem readTails_suffix (low high : UInt8) (bits tails : Nat) (bytes : List UInt8) :
    (readTails low high bits tails bytes).2 <:+ bytes := by
  induction tails generalizing low high bits bytes with
  | zero => exact List.suffix_rfl
  | succ tails ih =>
    cases bytes with
    | nil => exact List.suffix_rfl
    | cons b bytes =>
      rw [readTails]
      split
      · exact (ih _ _ _ _).trans (List.suffix_cons b bytes)
      · exact List.suffix_rfl

/-- A further byte that is read is in its range. -/
theorem exists_tail_of_readTails
    (h : readTails low high bits (tails + 1) bytes = (some n, rest)) :
    ∃ t others, bytes = t :: others ∧ low.toNat ≤ t.toNat ∧ t.toNat ≤ high.toNat ∧
      readTails 0x80 0xbf (bits * 64 + t.toNat % 64) tails others = (some n, rest) := by
  cases bytes with
  | nil => cases h
  | cons t others =>
    rw [readTails] at h
    split at h
    · rename_i hrange
      exact ⟨t, others, rfl, UInt8.le_iff_toNat_le.mp hrange.1,
        UInt8.le_iff_toNat_le.mp hrange.2, h⟩
    · cases h

/-- A further byte that is read, when any may be. -/
theorem exists_anyTail_of_readTails
    (h : readTails 0x80 0xbf bits (tails + 1) bytes = (some n, rest)) :
    ∃ t others, bytes = t :: others ∧ 0x80 ≤ t.toNat ∧ t.toNat ≤ 0xbf ∧
      readTails 0x80 0xbf (bits * 64 + t.toNat % 64) tails others = (some n, rest) :=
  exists_tail_of_readTails h

/-- What the first byte of a character says, by the number of bytes that follow. -/
theorem lead?_cases {lead : Lead} (h : lead? b = some lead) :
    (b.toNat < 0x80 ∧ lead.tails = 0 ∧ lead.bits = b.toNat) ∨
    (0xc2 ≤ b.toNat ∧ b.toNat < 0xe0 ∧ lead.tails = 1 ∧ lead.bits = b.toNat - 0xc0 ∧
      lead.low.toNat = 0x80 ∧ lead.high.toNat = 0xbf) ∨
    (0xe0 ≤ b.toNat ∧ b.toNat < 0xf0 ∧ lead.tails = 2 ∧ lead.bits = b.toNat - 0xe0 ∧
      lead.low.toNat = (if b.toNat = 0xe0 then 0xa0 else 0x80) ∧
      lead.high.toNat = (if b.toNat = 0xed then 0x9f else 0xbf)) ∨
    (0xf0 ≤ b.toNat ∧ b.toNat ≤ 0xf4 ∧ lead.tails = 3 ∧ lead.bits = b.toNat - 0xf0 ∧
      lead.low.toNat = (if b.toNat = 0xf0 then 0x90 else 0x80) ∧
      lead.high.toNat = (if b.toNat = 0xf4 then 0x8f else 0xbf)) := by
  have hb : UInt8.ofNat b.toNat = b := UInt8.ofNat_toNat
  -- The bounds are those at which the number of bytes changes; 0x80 to 0xc1 start no character.
  by_cases hone : b.toNat < 0x80
  · rw [← hb, lead?_ofNat_one (by omega)] at h
    obtain rfl := Option.some.inj h
    exact .inl ⟨hone, rfl, rfl⟩
  by_cases hnone : b.toNat < 0xc2
  · simp [lead?, hone, hnone] at h
  by_cases htwo : b.toNat < 0xe0
  · rw [← hb, lead?_ofNat_two (by omega) htwo] at h
    obtain rfl := Option.some.inj h
    exact .inr (.inl ⟨by omega, htwo, rfl, rfl, rfl, rfl⟩)
  by_cases hthree : b.toNat < 0xf0
  · obtain ⟨other, hother, hlead⟩ := exists_lead?_ofNat_three (k := b.toNat) (by omega) hthree
    rw [hb, h] at hother
    obtain rfl := Option.some.inj hother
    exact .inr (.inr (.inl ⟨by omega, hthree, hlead⟩))
  by_cases hfour : b.toNat ≤ 0xf4
  · obtain ⟨other, hother, hlead⟩ := exists_lead?_ofNat_four (k := b.toNat) (by omega) hfour
    rw [hb, h] at hother
    obtain rfl := Option.some.inj hother
    exact .inr (.inr (.inr ⟨by omega, hfour, hlead⟩))
  · rw [lead?, if_neg hone, if_neg hnone, if_neg htwo, if_neg (by omega), if_neg (by omega),
      if_neg hthree, if_neg (by omega), if_neg (by omega), if_neg (by omega)] at h
    cases h

/-- A character is encoded by its code point. -/
theorem utf8EncodeChar_ofNat (h : n.isValidChar) :
    String.utf8EncodeChar (Char.ofNat n) =
      if n ≤ 0x7f then [UInt8.ofNat n]
      else if n ≤ 0x7ff then [UInt8.ofNat (n / 64 % 32 + 0xc0), UInt8.ofNat (n % 64 + 0x80)]
      else if n ≤ 0xffff then
        [UInt8.ofNat (n / 4096 % 16 + 0xe0), UInt8.ofNat (n / 64 % 64 + 0x80),
          UInt8.ofNat (n % 64 + 0x80)]
      else
        [UInt8.ofNat (n / 262144 % 8 + 0xf0), UInt8.ofNat (n / 4096 % 64 + 0x80),
          UInt8.ofNat (n / 64 % 64 + 0x80), UInt8.ofNat (n % 64 + 0x80)] := by
  have hvalue : (Char.ofNat n).val.toNat = n := by
    rw [Char.ofNat, dif_pos h]
    rfl
  rw [String.utf8EncodeChar, hvalue]

/-- The bytes from which a character is read are those of the character. -/
theorem utf8EncodeChar_append_of_readTails {lead : Lead} (hlead : lead? b = some lead)
    (h : readTails lead.low lead.high lead.bits lead.tails bytes = (some n, rest)) :
    String.utf8EncodeChar (Char.ofNat n) ++ rest = b :: bytes := by
  have hbyte : ∀ {k : Nat} {b : UInt8}, k = b.toNat → UInt8.ofNat k = b := by
    rintro _ b rfl
    exact UInt8.ofNat_toNat
  have hvalid : ∀ {n : Nat}, n < 0xd800 ∨ 0xdfff < n ∧ n < 0x110000 → n.isValidChar := id
  -- The range of the first byte after the lead puts the code point where it needs as many bytes as
  -- were read.
  rcases lead?_cases hlead with ⟨hone, htails, hbits⟩ |
    ⟨hlow, hhigh, htails, hbits, hfirst, hlast⟩ | ⟨hlow, hhigh, htails, hbits, hfirst, hlast⟩ |
    ⟨hlow, hhigh, htails, hbits, hfirst, hlast⟩
  · rw [htails, readTails, hbits] at h
    obtain ⟨hn, rfl⟩ := Prod.mk.inj h
    obtain rfl := Option.some.inj hn
    rw [utf8EncodeChar_ofNat (hvalid (by omega)), if_pos (by omega), UInt8.ofNat_toNat]
    rfl
  · rw [htails] at h
    obtain ⟨t, others, rfl, ht_low, ht_high, h⟩ := exists_tail_of_readTails h
    obtain ⟨hn, rfl⟩ := Prod.mk.inj h
    have hn := Option.some.inj hn
    rw [utf8EncodeChar_ofNat (hvalid (by omega)), if_neg (by omega), if_pos (by omega),
      hbyte (b := b) (by omega), hbyte (b := t) (by omega)]
    rfl
  · rw [htails] at h
    obtain ⟨t, others, rfl, ht_low, ht_high, h⟩ := exists_tail_of_readTails h
    obtain ⟨u, others, rfl, hu_low, hu_high, h⟩ := exists_anyTail_of_readTails h
    obtain ⟨hn, rfl⟩ := Prod.mk.inj h
    have hn := Option.some.inj hn
    rw [hfirst] at ht_low
    rw [hlast] at ht_high
    split at ht_low <;> split at ht_high
    all_goals
      rw [utf8EncodeChar_ofNat (hvalid (by omega)), if_neg (by omega), if_neg (by omega),
        if_pos (by omega), hbyte (b := b) (by omega), hbyte (b := t) (by omega),
        hbyte (b := u) (by omega)]
      rfl
  · rw [htails] at h
    obtain ⟨t, others, rfl, ht_low, ht_high, h⟩ := exists_tail_of_readTails h
    obtain ⟨u, others, rfl, hu_low, hu_high, h⟩ := exists_anyTail_of_readTails h
    obtain ⟨v, others, rfl, hv_low, hv_high, h⟩ := exists_anyTail_of_readTails h
    obtain ⟨hn, rfl⟩ := Prod.mk.inj h
    have hn := Option.some.inj hn
    rw [hfirst] at ht_low
    rw [hlast] at ht_high
    split at ht_low <;> split at ht_high
    all_goals
      rw [utf8EncodeChar_ofNat (hvalid (by omega)), if_neg (by omega), if_neg (by omega),
        if_neg (by omega), hbyte (b := b) (by omega), hbyte (b := t) (by omega),
        hbyte (b := u) (by omega), hbyte (b := v) (by omega)]
      rfl

/-- The pieces, put together, are the bytes. -/
theorem flatMap_bytes_decode (bytes : List UInt8) : (decode bytes).flatMap Piece.bytes = bytes := by
  fun_induction decode bytes with
  | case1 => rfl
  | case2 b bytes hlead ih => rw [List.flatMap_cons, ih, Piece.bytes, List.singleton_append]
  | case3 b bytes lead hlead value rest hread hlength piece ih =>
    rw [List.flatMap_cons, ih]
    cases value with
    | some n => exact utf8EncodeChar_append_of_readTails hlead hread
    | none =>
      have hsuffix := readTails_suffix lead.low lead.high lead.bits lead.tails bytes
      rw [hread] at hsuffix
      exact congrArg (b :: ·) (List.suffix_iff_eq_append.mp hsuffix)

/-- Where nothing but characters is read, the bytes are those of the text. -/
theorem eq_encode_of_decode {s : String} (h : decode bytes = s.toList.map .char) :
    bytes = encode s := by
  rw [← flatMap_bytes_decode bytes, h, encode, List.flatMap_map]
  rfl

theorem toList_lossyText (bytes : List UInt8) :
    (lossyText bytes).toList = (decode bytes).map Piece.shown :=
  String.toList_ofList

/-- Only no bytes are shown as no text. -/
theorem lossyText_eq_empty_iff : lossyText bytes = "" ↔ bytes = [] := by
  constructor
  · intro h
    have hdecode : decode bytes = [] := by
      rw [← List.map_eq_nil_iff (f := Piece.shown), ← toList_lossyText, h]
      rfl
    rw [← flatMap_bytes_decode bytes, hdecode]
    rfl
  · rintro rfl
    exact lossyText_encode ""

/-- A character that is shown and does not stand for a fault is there in the bytes. -/
theorem mem_of_mem_lossyText {c : Char} (hc : c ≠ '\uFFFD') (h : c ∈ (lossyText bytes).toList) :
    ∀ b ∈ String.utf8EncodeChar c, b ∈ bytes := by
  rw [toList_lossyText, List.mem_map] at h
  obtain ⟨piece, hpiece, rfl⟩ := h
  cases piece with
  | fault _ => exact absurd rfl hc
  | char c =>
    intro b hb
    rw [← flatMap_bytes_decode bytes]
    exact List.mem_flatMap.mpr ⟨.char c, hpiece, hb⟩

/-- Bytes that read as a text in which nothing stands for a fault are those of the text. -/
theorem eq_encode_of_lossyText {s : String} (hs : '\uFFFD' ∉ s.toList) (h : lossyText bytes = s) :
    bytes = encode s := by
  subst h
  refine eq_encode_of_decode ?_
  rw [toList_lossyText, List.map_map]
  refine (List.map_id _).symm.trans (List.map_congr_left fun piece hpiece => ?_)
  cases piece with
  | char c => rfl
  | fault _ =>
    refine absurd ?_ hs
    rw [toList_lossyText]
    exact List.mem_map_of_mem hpiece

end GoBuildRules.Utf8
