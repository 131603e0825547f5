import Mathlib.Data.List.Forall2
import Mathlib.Data.Nat.Digits.Defs
import GoBuildRules.Header.Literal

/-!
# How a string literal is spelled

The text between two double quotes is a spelling of bytes (`Spelling`): characters that stand for
themselves and escapes (`IsEscape`) in any order. Reading a literal gives the bytes of its spelling
(`Literal.read_eq_ok_iff`), and it fails where a spelling cannot go on, at the end of the text or of
the line or at a backslash that starts no escape (`Literal.read_eq_error_iff`).

Escapes are described by what they stand for: a byte escape has the digits of a byte, so the octal
ones end at `\377`, and a character escape the digits of a code point, which no surrogate is.
-/

namespace GoBuildRules.Literal

/-! ## Numbers -/

/-- The character is the digit with the value, in lower or upper case. -/
def IsDigit (value : Nat) (c : Char) : Prop :=
  c = value.digitChar ∨ c = value.digitChar.toUpper

instance (value : Nat) (c : Char) : Decidable (IsDigit value c) :=
  inferInstanceAs (Decidable (_ ∨ _))

/-- The characters are the digits of the number, the highest first. -/
def SpellsNumber (base : Nat) (cs : List Char) (n : Nat) : Prop :=
  ∃ values, List.Forall₂ (fun c value => value < base ∧ IsDigit value c) cs values ∧
    n = Nat.ofDigits base values.reverse

variable {base count n value width : Nat} {c : Char} {cs rest : List Char} {bytes : List UInt8}

/-- A character of a range is given by how far it is from the first one. -/
theorem exists_ofNat_of_le {low high : Char} (h : low ≤ c ∧ c ≤ high) :
    c = Char.ofNat (c.toNat - low.toNat + low.toNat) ∧
      c.toNat - low.toNat ≤ high.toNat - low.toNat := by
  have hlow : low.toNat ≤ c.toNat := UInt32.le_iff_toNat_le.mp (Char.le_def.mp h.1)
  have hhigh : c.toNat ≤ high.toNat := UInt32.le_iff_toNat_le.mp (Char.le_def.mp h.2)
  exact ⟨by rw [Nat.sub_add_cancel hlow, Char.ofNat_toNat], Nat.sub_le_sub_right hhigh _⟩

theorem digit?_eq_some_iff (hbase : base ≤ 16) :
    digit? base c = some value ↔ value < base ∧ IsDigit value c := by
  have hdecimal : ∀ v ≤ 9, Char.ofNat (v + '0'.toNat) = v.digitChar := by decide
  have hlower : ∀ v < 6, Char.ofNat (v + 'a'.toNat) = (v + 10).digitChar := by decide
  have hupper : ∀ v < 6, Char.ofNat (v + 'A'.toNat) = (v + 10).digitChar.toUpper := by decide
  have hread : ∀ v < 16,
      digit? 16 v.digitChar = some v ∧ digit? 16 v.digitChar.toUpper = some v := by
    decide
  -- The bound by the base is a test of its own; below it the digits are those of base 16.
  rw [digit?, Option.filter_eq_some_iff, decide_eq_true_iff, and_comm]
  refine and_congr_right fun hvalue => ?_
  constructor
  · intro h
    split at h
    · rename_i hrange
      obtain ⟨hc, hle⟩ := exists_ofNat_of_le hrange
      obtain rfl := Option.some.inj h
      exact .inl (hc.trans (hdecimal _ hle))
    · split at h
      · rename_i hrange
        obtain rfl := Option.some.inj h
        exact .inl ((exists_ofNat_of_le hrange).1.trans (hlower _ (by omega)))
      · split at h
        · rename_i hrange
          obtain rfl := Option.some.inj h
          exact .inr ((exists_ofNat_of_le hrange).1.trans (hupper _ (by omega)))
        · cases h
  · intro h
    obtain ⟨hplain, hcapital⟩ := hread value (by omega)
    have hdigit : digit? 16 c = some value := by
      rcases h with rfl | rfl
      · exact hplain
      · exact hcapital
    exact (Option.filter_eq_some_iff.mp hdigit).1

theorem mapM_digit?_eq_some_iff (hbase : base ≤ 16) {values : List Nat} :
    cs.mapM (digit? base) = some values ↔
      List.Forall₂ (fun c value => value < base ∧ IsDigit value c) cs values := by
  induction cs generalizing values with
  | nil =>
    rw [List.mapM_nil, List.forall₂_nil_left_iff, eq_comm]
    exact Option.some.injEq .. |>.to_iff
  | cons c cs ih =>
    rw [List.mapM_cons]
    constructor
    · intro h
      obtain ⟨value, hvalue, h⟩ := Option.bind_eq_some_iff.mp h
      obtain ⟨more, hmore, h⟩ := Option.bind_eq_some_iff.mp h
      obtain rfl := Option.some.inj h
      exact .cons ((digit?_eq_some_iff hbase).mp hvalue) (ih.mp hmore)
    · rintro (_ | ⟨hvalue, hmore⟩)
      rw [(digit?_eq_some_iff hbase).mpr hvalue, ih.mpr hmore]
      rfl

theorem foldl_eq_ofDigits (base : Nat) (values : List Nat) :
    values.foldl (fun value digit => value * base + digit) 0 =
      Nat.ofDigits base values.reverse := by
  rw [Nat.ofDigits_eq_foldr, List.foldr_reverse]
  congr
  funext value digit
  rw [Nat.mul_comm, Nat.add_comm]
  rfl

theorem number?_eq_some_iff (hbase : base ≤ 16) :
    number? base count cs = some n ↔
      ∃ digits tail, cs = digits ++ tail ∧ digits.length = count ∧ SpellsNumber base digits n := by
  rw [number?]
  constructor
  · intro h
    split at h
    · cases h
    · rename_i hlength
      obtain ⟨values, hvalues, rfl⟩ := Option.map_eq_some_iff.mp h
      exact ⟨cs.take count, cs.drop count, (List.take_append_drop count cs).symm,
        List.length_take_of_le (Nat.not_lt.mp hlength), values,
        (mapM_digit?_eq_some_iff hbase).mp hvalues, foldl_eq_ofDigits base values⟩
  · rintro ⟨digits, tail, rfl, rfl, values, hvalues, rfl⟩
    have hlength : ¬ (digits ++ tail).length < digits.length := by simp
    rw [if_neg hlength, List.take_left, (mapM_digit?_eq_some_iff hbase).mpr hvalues,
      ← foldl_eq_ofDigits]
    rfl

theorem SpellsNumber.lt (hbase : 1 < base) (h : SpellsNumber base cs n) :
    n < base ^ cs.length := by
  obtain ⟨values, hvalues, rfl⟩ := h
  have hlt : ∀ value ∈ values, value < base := by
    induction hvalues with
    | nil => nofun
    | cons hvalue _ ih => exact List.forall_mem_cons.mpr ⟨hvalue.1, ih⟩
  rw [hvalues.length_eq, ← List.length_reverse]
  exact Nat.ofDigits_lt_base_pow_length hbase fun value hvalue =>
    hlt value (List.mem_reverse.mp hvalue)

/-- The digits of a number stand on one line. -/
theorem SpellsNumber.feed_notMem (hbase : base ≤ 16) (h : SpellsNumber base cs n) : '\n' ∉ cs := by
  have hdigits : ∀ v < 16, ¬ IsDigit v '\n' := by decide
  obtain ⟨values, hvalues, -⟩ := h
  induction hvalues with
  | nil => exact List.not_mem_nil
  | cons hvalue _ ih =>
    refine List.not_mem_cons_of_ne_of_not_mem ?_ ih
    rintro rfl
    exact hdigits _ (by omega) hvalue.2

/-- Before the eighth digit, the number of the digits with another one added to it has 32 bits. -/
theorem mul_add_lt_of_number? {digit : Nat} (hbase : 1 < base) (hle : base ≤ 16)
    (hcount : count < 8) (h : number? base count cs = some n) (hdigit : digit < base) :
    n * base + digit < 2 ^ 32 := by
  obtain ⟨digits, tail, -, rfl, hn⟩ := (number?_eq_some_iff hle).mp h
  calc n * base + digit < (n + 1) * base := by rw [Nat.succ_mul]; omega
    _ ≤ base ^ digits.length * base := Nat.mul_le_mul_right base (hn.lt hbase)
    _ = base ^ (digits.length + 1) := (Nat.pow_succ ..).symm
    _ ≤ base ^ 8 := Nat.pow_le_pow_right (by omega) hcount
    _ ≤ 16 ^ 8 := Nat.pow_le_pow_left hle 8
    _ = 2 ^ 32 := rfl

/-! ## Escapes -/

/-- The characters that a letter stands for after a backslash. -/
def shortEscapes : List (Char × Char) :=
  [('a', '\x07'), ('b', '\x08'), ('f', '\x0c'), ('n', '\n'), ('r', '\r'), ('t', '\t'),
   ('v', '\x0b'), ('\\', '\\'), ('"', '"'), ('\'', '\'')]

/-- The characters after a backslash stand for the bytes. -/
inductive IsEscape : List Char → List UInt8 → Prop
  | short {letter c : Char} (h : (letter, c) ∈ shortEscapes) :
    IsEscape [letter] (String.utf8EncodeChar c)
  | hex {digits : List Char} {byte : UInt8} (hlength : digits.length = 2)
      (h : SpellsNumber 16 digits byte.toNat) : IsEscape ('x' :: digits) [byte]
  | octal {digits : List Char} {byte : UInt8} (hlength : digits.length = 3)
      (h : SpellsNumber 8 digits byte.toNat) : IsEscape digits [byte]
  | shortCodePoint {digits : List Char} {c : Char} (hlength : digits.length = 4)
      (h : SpellsNumber 16 digits c.toNat) : IsEscape ('u' :: digits) (String.utf8EncodeChar c)
  | longCodePoint {digits : List Char} {c : Char} (hlength : digits.length = 8)
      (h : SpellsNumber 16 digits c.toNat) : IsEscape ('U' :: digits) (String.utf8EncodeChar c)

theorem simpleEscape?_eq_some_iff {letter : Char} :
    simpleEscape? letter = some c ↔ (letter, c) ∈ shortEscapes := by
  constructor
  · intro h
    unfold simpleEscape? at h
    split at h <;> cases h
    all_goals decide
  · intro h
    have hall : ∀ entry ∈ shortEscapes, simpleEscape? entry.1 = some entry.2 := by decide
    exact hall _ h

theorem byte?_eq_some_iff :
    byte? n = some bytes ↔ ∃ byte : UInt8, byte.toNat = n ∧ bytes = [byte] := by
  rw [byte?]
  constructor
  · intro h
    obtain ⟨hlt, h⟩ := Option.ite_none_right_eq_some.mp h
    exact ⟨UInt8.ofNat n, UInt8.toNat_ofNat_of_lt' hlt, (Option.some.inj h).symm⟩
  · rintro ⟨byte, rfl, rfl⟩
    rw [if_pos byte.toNat_lt, UInt8.ofNat_toNat]

theorem charBytes?_eq_some_iff :
    charBytes? n = some bytes ↔ ∃ c : Char, c.toNat = n ∧ bytes = String.utf8EncodeChar c := by
  rw [charBytes?]
  constructor
  · intro h
    obtain ⟨hvalid, h⟩ := Option.ite_none_right_eq_some.mp h
    refine ⟨Char.ofNat n, ?_, (Option.some.inj h).symm⟩
    rw [Char.ofNat, dif_pos hvalid]
    rfl
  · rintro ⟨c, rfl, rfl⟩
    rw [if_pos (show c.toNat.isValidChar from c.valid), Char.ofNat_toNat]

/-- An escape that spells a number. -/
theorem numbered_eq_some_iff (hbase : base ≤ 16) {f : Nat → Option (List UInt8)} {w : Nat} :
    ((number? base count cs).bind f).map (fun bytes => (bytes, w)) = some (bytes, width) ↔
      ∃ digits tail n, cs = digits ++ tail ∧ digits.length = count ∧ SpellsNumber base digits n ∧
        f n = some bytes ∧ w = width := by
  simp only [Option.map_eq_some_iff, Option.bind_eq_some_iff, number?_eq_some_iff hbase,
    Prod.mk.injEq]
  constructor
  · rintro ⟨escaped, ⟨n, ⟨digits, tail, heq, hlength, hn⟩, hf⟩, rfl, hwidth⟩
    exact ⟨digits, tail, n, heq, hlength, hn, hf, hwidth⟩
  · rintro ⟨digits, tail, n, heq, hlength, hn, hf, hwidth⟩
    exact ⟨bytes, ⟨n, ⟨digits, tail, heq, hlength, hn⟩, hf⟩, rfl, hwidth⟩

/-- The first of octal digits starts no other escape. -/
theorem octal_cases (h : value < 8 ∧ IsDigit value c) :
    simpleEscape? c = none ∧ c ≠ 'x' ∧ '0' ≤ c ∧ c ≤ '7' := by
  have hall : ∀ v < 8, ∀ c ∈ [v.digitChar, v.digitChar.toUpper],
      simpleEscape? c = none ∧ c ≠ 'x' ∧ '0' ≤ c ∧ c ≤ '7' := by decide
  exact hall value h.1 c (by simpa [IsDigit] using h.2)

/-- An escape is read whatever follows it. -/
theorem escape?_of_isEscape {digits : List Char} (h : IsEscape (c :: digits) bytes)
    (tail : List Char) : escape? c (digits ++ tail) = some (bytes, digits.length) := by
  have hnumbered : ∀ {base : Nat} {ds : List Char} {f : Nat → Option (List UInt8)} {n : Nat},
      base ≤ 16 → SpellsNumber base ds n → f n = some bytes → ∀ w,
      ((number? base ds.length (ds ++ tail)).bind f).map (fun bytes => (bytes, w)) =
        some (bytes, w) :=
    fun hbase hn hf w => (numbered_eq_some_iff hbase).mpr ⟨_, tail, _, rfl, rfl, hn, hf, rfl⟩
  cases h with
  | short h =>
    rw [escape?, simpleEscape?_eq_some_iff.mpr h]
    rfl
  | hex hlength h =>
    have hread := hnumbered (by decide) h (byte?_eq_some_iff.mpr ⟨_, rfl, rfl⟩) 2
    rw [hlength] at hread ⊢
    exact hread
  -- The first octal digit is the character after the backslash itself, so it is read again with the
  -- digits after it.
  | octal hlength h =>
    have hread := hnumbered (by decide) h (byte?_eq_some_iff.mpr ⟨_, rfl, rfl⟩) 2
    obtain ⟨values, _ | ⟨hdigit, -⟩, -⟩ := h
    obtain ⟨hsimple, hx, hrange⟩ := octal_cases hdigit
    rw [hlength, List.cons_append] at hread
    rw [escape?, hsimple, Nat.succ.inj hlength]
    simp only [if_neg hx, if_pos hrange, hread]
  | shortCodePoint hlength h =>
    have hread := hnumbered (by decide) h (charBytes?_eq_some_iff.mpr ⟨_, rfl, rfl⟩) 4
    rw [hlength] at hread ⊢
    exact hread
  | longCodePoint hlength h =>
    have hread := hnumbered (by decide) h (charBytes?_eq_some_iff.mpr ⟨_, rfl, rfl⟩) 8
    rw [hlength] at hread ⊢
    exact hread

theorem isEscape_of_escape? (h : escape? c rest = some (bytes, width)) :
    ∃ digits tail, rest = digits ++ tail ∧ digits.length = width ∧
      IsEscape (c :: digits) bytes := by
  rw [escape?] at h
  split at h
  · rename_i d hd
    obtain ⟨rfl, rfl⟩ := Prod.mk.inj (Option.some.inj h)
    exact ⟨[], rest, rfl, rfl, .short (simpleEscape?_eq_some_iff.mp hd)⟩
  · split at h
    · rename_i hx
      subst hx
      obtain ⟨digits, tail, n, rfl, hlength, hn, hbyte, rfl⟩ :=
        (numbered_eq_some_iff (by decide)).mp h
      obtain ⟨byte, rfl, rfl⟩ := byte?_eq_some_iff.mp hbyte
      exact ⟨digits, tail, rfl, hlength, .hex hlength hn⟩
    · split at h
      · obtain ⟨digits, tail, n, heq, hlength, hn, hbyte, rfl⟩ :=
          (numbered_eq_some_iff (by decide)).mp h
        obtain ⟨byte, rfl, rfl⟩ := byte?_eq_some_iff.mp hbyte
        obtain ⟨d, digits, rfl⟩ := List.exists_cons_of_length_eq_add_one hlength
        obtain ⟨rfl, rfl⟩ := List.cons.inj heq
        exact ⟨digits, tail, rfl, Nat.succ.inj hlength, .octal hlength hn⟩
      · split at h
        · rename_i hu
          subst hu
          obtain ⟨digits, tail, n, rfl, hlength, hn, hchar, rfl⟩ :=
            (numbered_eq_some_iff (by decide)).mp h
          obtain ⟨d, rfl, rfl⟩ := charBytes?_eq_some_iff.mp hchar
          exact ⟨digits, tail, rfl, hlength, .shortCodePoint hlength hn⟩
        · split at h
          · rename_i hU
            subst hU
            obtain ⟨digits, tail, n, rfl, hlength, hn, hchar, rfl⟩ :=
              (numbered_eq_some_iff (by decide)).mp h
            obtain ⟨d, rfl, rfl⟩ := charBytes?_eq_some_iff.mp hchar
            exact ⟨digits, tail, rfl, hlength, .longCodePoint hlength hn⟩
          · cases h

/-- The text after a backslash starts with no escape. -/
def NoEscape (cs : List Char) : Prop :=
  ∀ escape bytes, IsEscape escape bytes → ¬ escape <+: cs

theorem IsEscape.exists_cons {escape : List Char} (h : IsEscape escape bytes) :
    ∃ c digits, escape = c :: digits := by
  cases h with
  | octal hlength h =>
    obtain ⟨d, digits, rfl⟩ := List.exists_cons_of_length_eq_add_one hlength
    exact ⟨d, digits, rfl⟩
  | _ => exact ⟨_, _, rfl⟩

/-- An escape stands on one line. -/
theorem IsEscape.feed_notMem {escape : List Char} (h : IsEscape escape bytes) : '\n' ∉ escape := by
  have hcons : ∀ {c : Char} {digits : List Char} {n : Nat}, c ≠ '\n' → SpellsNumber 16 digits n →
      '\n' ∉ c :: digits := fun hc hn =>
    List.not_mem_cons_of_ne_of_not_mem hc.symm (hn.feed_notMem (by decide))
  cases h with
  | short h =>
    have hletters : ∀ entry ∈ shortEscapes, '\n' ∉ [entry.1] := by decide
    exact hletters _ h
  | hex _ h => exact hcons (by decide) h
  | octal _ h => exact h.feed_notMem (by decide)
  | shortCodePoint _ h => exact hcons (by decide) h
  | longCodePoint _ h => exact hcons (by decide) h

theorem escape?_eq_none_iff : escape? c rest = none ↔ NoEscape (c :: rest) := by
  constructor
  · rintro h escape bytes hescape ⟨tail, htail⟩
    obtain ⟨d, digits, rfl⟩ := hescape.exists_cons
    rw [List.cons_append] at htail
    obtain ⟨rfl, rfl⟩ := List.cons.inj htail
    rw [escape?_of_isEscape hescape] at h
    cases h
  · intro h
    refine Option.eq_none_iff_forall_ne_some.mpr fun (bytes, width) hescape => ?_
    obtain ⟨digits, tail, rfl, -, hdigits⟩ := isEscape_of_escape? hescape
    exact h _ bytes hdigits ⟨tail, rfl⟩

theorem noEscape_nil : NoEscape [] := by
  intro escape bytes h
  obtain ⟨c, digits, rfl⟩ := h.exists_cons
  exact List.cons_ne_nil c digits ∘ List.prefix_nil.mp

instance : DecidablePred NoEscape
  | [] => .isTrue noEscape_nil
  | _ :: _ => decidable_of_iff _ escape?_eq_none_iff

/-! ## Literals -/

/-- The text between the quotes of a literal stands for the bytes. -/
inductive Spelling : List Char → List UInt8 → Prop
  | nil : Spelling [] []
  | plain {c : Char} {cs : List Char} {bytes : List UInt8} (hquote : c ≠ '"')
      (hbackslash : c ≠ '\\') (hfeed : c ≠ '\n') (h : Spelling cs bytes) :
    Spelling (c :: cs) (String.utf8EncodeChar c ++ bytes)
  | escape {escape cs : List Char} {escaped bytes : List UInt8} (hescape : IsEscape escape escaped)
      (h : Spelling cs bytes) : Spelling ('\\' :: (escape ++ cs)) (escaped ++ bytes)

/-- Where a literal starts so, it cannot go on. -/
inductive Breaks : List Char → Fault → Prop
  | ending : Breaks [] .unterminated
  | backslash : Breaks ['\\'] .unterminated
  | feed (rest : List Char) : Breaks ('\n' :: rest) .unterminated
  | escape {c : Char} {rest : List Char} (h : NoEscape (c :: rest)) :
    Breaks ('\\' :: c :: rest) (.unknownEscape c)

/-- What is spelled between two quotes stands on one line. -/
theorem Spelling.feed_notMem {body : List Char} (h : Spelling body bytes) : '\n' ∉ body := by
  induction h with
  | nil => exact List.not_mem_nil
  | plain _ _ hfeed _ ih => exact List.not_mem_cons_of_ne_of_not_mem hfeed.symm ih
  | escape hescape _ ih =>
    refine List.not_mem_cons_of_ne_of_not_mem (by decide) ?_
    rw [List.mem_append, not_or]
    exact ⟨hescape.feed_notMem, ih⟩

/-- A spelling is read as its bytes before what follows it. -/
theorem read_append_of_spelling {body : List Char} (h : Spelling body bytes) (rest : List Char) :
    read (body ++ rest) = (read rest).map fun (more, after) => (bytes ++ more, after) := by
  induction h with
  | nil =>
    rw [List.nil_append]
    cases read rest <;> rfl
  | plain hquote hbackslash hfeed _ ih =>
    rw [List.cons_append, read, ih]
    · cases read rest <;> simp [Except.map]
    · exact hquote
    · exact hfeed
    · exact fun h => absurd h hbackslash
    · exact fun _ _ h => absurd h hbackslash
  | escape hescape _ ih =>
    obtain ⟨c, digits, rfl⟩ := hescape.exists_cons
    rw [List.cons_append, List.cons_append, List.cons_append, List.append_assoc, read,
      escape?_of_isEscape hescape]
    simp only [List.drop_left, ih]
    cases read rest <;> simp [Except.map]

theorem read_of_breaks {fault : Fault} (h : Breaks rest fault) : read rest = .error fault := by
  cases h with
  | ending => rw [read]
  | backslash => rw [read]
  | feed rest => rw [read]
  | escape h =>
    rw [read, escape?_eq_none_iff.mpr h]

/-- Every text after an opening quote is a spelling and then the closing quote or a break. -/
theorem exists_spelling (cs : List Char) : ∃ body bytes rest, cs = body ++ rest ∧
    Spelling body bytes ∧ ((∃ after, rest = '"' :: after) ∨ ∃ fault, Breaks rest fault) := by
  fun_induction read cs with
  | case1 => exact ⟨[], [], [], rfl, .nil, .inr ⟨_, .ending⟩⟩
  | case2 rest => exact ⟨[], [], _, rfl, .nil, .inl ⟨rest, rfl⟩⟩
  | case3 rest => exact ⟨[], [], _, rfl, .nil, .inr ⟨_, .feed rest⟩⟩
  | case4 => exact ⟨[], [], _, rfl, .nil, .inr ⟨_, .backslash⟩⟩
  | case5 c rest h => exact ⟨[], [], _, rfl, .nil, .inr ⟨_, .escape (escape?_eq_none_iff.mp h)⟩⟩
  | case6 c rest escaped width h ih =>
    obtain ⟨digits, tail, rfl, rfl, hescape⟩ := isEscape_of_escape? h
    rw [List.drop_left] at ih
    obtain ⟨body, bytes, rest, rfl, hbody, hrest⟩ := ih
    exact ⟨'\\' :: (c :: digits ++ body), escaped ++ bytes, rest, by simp,
      .escape hescape hbody, hrest⟩
  -- A backslash is met by one of the cases before, alone or with what follows it.
  | case7 c rest hquote hfeed hlone hescape ih =>
    have hbackslash : c ≠ '\\' := by
      rintro rfl
      cases rest with
      | nil => exact hlone rfl rfl
      | cons d rest => exact hescape d rest rfl rfl
    obtain ⟨body, bytes, rest, rfl, hbody, hrest⟩ := ih
    exact ⟨c :: body, _, rest, rfl, .plain hquote hbackslash hfeed hbody, hrest⟩

/-- A literal is read as the bytes of its spelling. -/
theorem read_eq_ok_iff {after : List Char} : read cs = .ok (bytes, after) ↔
    ∃ body, cs = body ++ '"' :: after ∧ Spelling body bytes := by
  constructor
  · intro h
    obtain ⟨body, others, rest, rfl, hbody, ⟨tail, rfl⟩ | ⟨fault, hbreaks⟩⟩ := exists_spelling cs
    · rw [read_append_of_spelling hbody, read] at h
      simp only [Except.map, List.append_nil, Except.ok.injEq, Prod.mk.injEq] at h
      obtain ⟨rfl, rfl⟩ := h
      exact ⟨body, rfl, hbody⟩
    · rw [read_append_of_spelling hbody, read_of_breaks hbreaks] at h
      cases h
  · rintro ⟨body, rfl, hbody⟩
    rw [read_append_of_spelling hbody, read]
    simp [Except.map]

/-- A literal is read the same in a longer text. -/
theorem read_append {after : List Char} (ds : List Char) (h : read cs = .ok (bytes, after)) :
    read (cs ++ ds) = .ok (bytes, after ++ ds) := by
  obtain ⟨body, rfl, hbody⟩ := read_eq_ok_iff.mp h
  exact read_eq_ok_iff.mpr ⟨body, List.append_assoc _ _ _, hbody⟩

/-- Reading a literal fails where its spelling breaks. -/
theorem read_eq_error_iff {fault : Fault} : read cs = .error fault ↔
    ∃ body bytes rest, cs = body ++ rest ∧ Spelling body bytes ∧ Breaks rest fault := by
  constructor
  · intro h
    obtain ⟨body, bytes, rest, rfl, hbody, ⟨tail, rfl⟩ | ⟨other, hbreaks⟩⟩ := exists_spelling cs
    · rw [read_append_of_spelling hbody, read] at h
      cases h
    · rw [read_append_of_spelling hbody, read_of_breaks hbreaks] at h
      obtain rfl := Except.error.inj h
      exact ⟨body, bytes, rest, rfl, hbody, hbreaks⟩
  · rintro ⟨body, bytes, rest, rfl, hbody, hbreaks⟩
    rw [read_append_of_spelling hbody, read_of_breaks hbreaks]
    rfl

end GoBuildRules.Literal
