import GoBuildRules.Header.Token
import GoBuildRules.Proofs.Header.Escapes
import GoBuildRules.Proofs.Text.Lines

/-!
# The lexemes of a text and of what follows it

A text whose last line is ended is lexed the same whatever follows it.

* `scan_append`: a lexeme that ends before the end of the text is the same in a longer text.
* `lex_append_of_last`, `lex_append`: so the lexemes of the text are a prefix of those of the longer
  text, and what follows is lexed on its own from the line on which the text ends.
* `lex_lines_lt`: all lexemes of the text end above that line.
-/

namespace GoBuildRules

namespace Text

/-- No blank can stand inside an identifier. -/
theorem continuesName_eq_false_of_isBlank {c : Char} (h : isBlank c = true) :
    continuesName c = false := by
  have hascending : blankRanges.Pairwise fun a b => a.1 ≤ b.1 := by decide
  obtain ⟨r, hr, hlow, hhigh⟩ := (covered_eq_true_iff hascending).mp h
  -- The blanks are few enough to look each of them up in the other tables.
  have hall : ∀ r ∈ blankRanges, ∀ n < r.2 + 1 - r.1,
      (covered letterRanges (r.1 + n) || covered numeralRanges (r.1 + n)) = false := by
    decide +kernel
  have hnone := hall r hr (c.toNat - r.1) (by omega)
  rw [Nat.add_sub_cancel' hlow, Bool.or_eq_false_iff] at hnone
  have hunderscore : c ≠ '_' := by
    rintro rfl
    exact absurd h (by decide)
  rw [continuesName, isLetter, isNumeral, hnone.1, hnone.2]
  simp [hunderscore]

variable {cs ds rest before marker : List Char}

theorem after?_append (ds : List Char) (h : after? marker cs = some rest) :
    after? marker (cs ++ ds) = some (rest ++ ds) := by
  rw [after?_eq_some_iff] at h ⊢
  rw [h, List.append_assoc]

/-- A marker that is found in a text is found there in a longer text as well. -/
theorem cutAt_append (h : cutAt marker cs = some (before, rest)) :
    cutAt marker (cs ++ ds) = some (before, rest ++ ds) := by
  induction cs generalizing before with
  | nil =>
    obtain ⟨r, hr, heq⟩ := Option.map_eq_some_iff.mp h
    obtain ⟨rfl, rfl⟩ := Prod.mk.inj heq
    obtain ⟨rfl, rfl⟩ : marker = [] ∧ r = [] := by
      simpa [eq_comm] using after?_eq_some_iff.mp hr
    have hafter : ∀ l : List Char, after? [] l = some l :=
      fun l => after?_eq_some_iff.mpr rfl
    cases ds with
    | nil => rw [List.append_nil, cutAt, hafter]; rfl
    | cons d ds => rw [List.nil_append, cutAt, hafter]
  | cons c cs ih =>
    rw [cutAt] at h
    cases hafter : after? marker (c :: cs) with
    | some r =>
      rw [hafter] at h
      obtain ⟨rfl, rfl⟩ := Prod.mk.inj (Option.some.inj h)
      have hlonger := after?_append ds hafter
      rw [List.cons_append] at hlonger
      rw [List.cons_append, cutAt, hlonger]
    | none =>
      rw [hafter] at h
      obtain ⟨⟨b, r⟩, hcut, heq⟩ := Option.map_eq_some_iff.mp h
      obtain ⟨rfl, rfl⟩ := Prod.mk.inj heq
      -- The marker is found later in the text, so the text is no shorter than the marker.
      have hlonger : after? marker (c :: (cs ++ ds)) = none := by
        refine Option.eq_none_iff_forall_ne_some.mpr fun tail htail => ?_
        have hprefix : marker <+: c :: cs := by
          refine List.prefix_of_prefix_length_le ⟨tail, (after?_eq_some_iff.mp htail).symm⟩
            (List.prefix_append (c :: cs) ds) ?_
          have hlength := congrArg List.length (eq_append_of_cutAt hcut)
          simp only [List.length_append] at hlength
          simp only [List.length_cons]
          omega
        obtain ⟨found, hfound⟩ := hprefix
        rw [after?_eq_some_iff.mpr hfound.symm] at hafter
        cases hafter
      rw [List.cons_append, cutAt, hlonger]
      simp only [ih hcut]
      rfl

end Text

namespace Lexeme

variable {c : Char} {cs ds : List Char} {s : Scanned}

/-! ## One lexeme -/

/-- The ways in which a lexeme can be read. -/
inductive Scans : Char → List Char → Scanned → Prop
  | lineComment (body : List Char) :
    Scans '/' ('/' :: body) ⟨.comment [String.ofList (body.takeWhile (· != '\n'))], 0,
      body.dropWhile (· != '\n')⟩
  | blockComment {body text rest : List Char}
      (hcut : Text.cutAt ['*', '/'] body = some (text, rest)) :
    Scans '/' ('*' :: body)
      ⟨.comment ((Text.lines text).map String.ofList), Text.lineFeeds text, rest⟩
  | slash {cs : List Char} (hline : ∀ body, cs ≠ '/' :: body) (hblock : ∀ body, cs ≠ '*' :: body) :
    Scans '/' cs ⟨.token (.mark '/'), 0, cs⟩
  | name {c : Char} (cs : List Char) (hname : Text.startsName c = true) :
    Scans c cs ⟨.token (.name (String.ofList (c :: cs.takeWhile Text.continuesName))), 0,
      cs.dropWhile Text.continuesName⟩
  | quoted {cs rest : List Char} {bytes : List UInt8}
      (hread : Literal.read cs = .ok (bytes, rest)) :
    Scans '"' cs ⟨.token (.literal (Utf8.lossyText bytes)), 0, rest⟩
  | raw {cs text rest : List Char} (hcut : Text.cutAt ['\x60'] cs = some (text, rest)) :
    Scans '\x60' cs ⟨.token (.literal (String.ofList text)), Text.lineFeeds text, rest⟩
  | number {c : Char} (cs : List Char) (hdigit : c.isDigit = true)
      (hname : Text.startsName c = false) :
    Scans c cs ⟨.token .number, 0, cs.dropWhile fun d => d.isAlphanum || d == '.'⟩
  | mark {c : Char} (cs : List Char) (hslash : c ≠ '/') (hname : Text.startsName c = false)
      (hquote : c ≠ '"') (hraw : c ≠ '\x60') (hdigit : c.isDigit = false) :
    Scans c cs ⟨.token (.mark c), 0, cs⟩

/-- A lexeme is read in one of the ways. -/
theorem scans_of_scan (h : scan c cs = .ok s) : Scans c cs s := by
  unfold scan at h
  split at h
  · rename_i hslash
    subst hslash
    split at h
    · obtain rfl := Except.ok.inj h
      exact .lineComment _
    · split at h
      · cases h
      · rename_i hcut
        obtain rfl := Except.ok.inj h
        exact .blockComment hcut
    · rename_i hline hblock
      obtain rfl := Except.ok.inj h
      exact .slash hline hblock
  · rename_i hslash
    split at h
    · rename_i hname
      obtain rfl := Except.ok.inj h
      exact .name cs hname
    · rename_i hname
      rw [Bool.not_eq_true] at hname
      split at h
      · rename_i hquote
        subst hquote
        split at h
        · cases h
        · rename_i hread
          obtain rfl := Except.ok.inj h
          exact .quoted hread
      · rename_i hquote
        split at h
        · rename_i hraw
          subst hraw
          split at h
          · cases h
          · rename_i hcut
            obtain rfl := Except.ok.inj h
            exact .raw hcut
        · rename_i hraw
          split at h
          · rename_i hdigit
            obtain rfl := Except.ok.inj h
            exact .number cs hdigit hname
          · rename_i hdigit
            obtain rfl := Except.ok.inj h
            exact .mark cs hslash hname hquote hraw (Bool.eq_false_iff.mpr hdigit)

/-- What is read in one of the ways is the lexeme, since the ways before it do not apply. -/
theorem Scans.scan_eq (h : Scans c cs s) : scan c cs = .ok s := by
  cases h with
  | lineComment body => rfl
  | blockComment hcut => simp only [scan, if_true, hcut]
  | slash hline hblock =>
    unfold scan
    rw [if_pos rfl]
    split
    · exact absurd rfl (hline _)
    · exact absurd rfl (hblock _)
    · rfl
  | name cs hname =>
    have hslash : c ≠ '/' := by
      rintro rfl
      exact absurd hname (by decide)
    simp only [scan, if_neg hslash, if_pos hname]
  | quoted hread =>
    have hname : ¬ Text.startsName '"' = true := by decide
    simp only [scan, if_neg (show ¬ '"' = '/' by decide), if_neg hname, if_true, hread]
  | raw hcut =>
    have hname : ¬ Text.startsName '\x60' = true := by decide
    simp only [scan, if_neg (show ¬ '\x60' = '/' by decide), if_neg hname,
      if_neg (show ¬ '\x60' = '"' by decide), if_true, hcut]
  | number cs hdigit hname =>
    have hne : ∀ d : Char, d.isDigit = false → c ≠ d := by
      rintro d hd rfl
      rw [hdigit] at hd
      cases hd
    simp [scan, hne '/' (by decide), hname, hne '"' (by decide), hne '\x60' (by decide), hdigit]
  | mark cs hslash hname hquote hraw hdigit => simp [scan, hslash, hname, hquote, hraw, hdigit]

theorem scan_eq_ok_iff : scan c cs = .ok s ↔ Scans c cs s :=
  ⟨scans_of_scan, Scans.scan_eq⟩

/-- A literal that cannot be read is no lexeme. -/
theorem scan_quoted_error {fault : Literal.Fault} (hread : Literal.read cs = .error fault) :
    scan '"' cs = .error (.literal fault) := by
  have hname : ¬ Text.startsName '"' = true := by decide
  simp only [scan, if_neg (show ¬ '"' = '/' by decide), if_neg hname, if_true, hread]

theorem takeWhile_append_of_dropWhile_ne_nil (ds : List Char) {p : Char → Bool}
    (h : cs.dropWhile p ≠ []) :
    (cs ++ ds).takeWhile p = cs.takeWhile p ∧ (cs ++ ds).dropWhile p = cs.dropWhile p ++ ds := by
  induction cs with
  | nil => exact absurd rfl h
  | cons c cs ih =>
    cases hc : p c with
    | true =>
      rw [List.dropWhile_cons_of_pos hc] at h
      obtain ⟨htake, hdrop⟩ := ih h
      simp [hc, htake, hdrop]
    | false => simp [hc]

/-- A lexeme that ends before the end of the text is the same in a longer text. -/
theorem Scans.append (h : Scans c cs s) (hrest : s.rest ≠ []) :
    Scans c (cs ++ ds) { s with rest := s.rest ++ ds } := by
  cases h with
  | lineComment body =>
    obtain ⟨htake, hdrop⟩ := takeWhile_append_of_dropWhile_ne_nil ds hrest
    rw [← htake, ← hdrop]
    exact .lineComment (body ++ ds)
  | blockComment hcut => exact .blockComment (Text.cutAt_append hcut)
  -- The slash has another character after it, which shows that no comment starts here.
  | slash hline hblock =>
    obtain ⟨d, rest, rfl⟩ := List.exists_cons_of_ne_nil hrest
    refine .slash (fun body heq => ?_) fun body heq => ?_
    · obtain ⟨rfl, -⟩ := List.cons.inj heq
      exact hline rest rfl
    · obtain ⟨rfl, -⟩ := List.cons.inj heq
      exact hblock rest rfl
  | name cs hname =>
    obtain ⟨htake, hdrop⟩ := takeWhile_append_of_dropWhile_ne_nil ds hrest
    rw [← htake, ← hdrop]
    exact .name (cs ++ ds) hname
  | quoted hread => exact .quoted (Literal.read_append ds hread)
  | raw hcut => exact .raw (Text.cutAt_append hcut)
  | number cs hdigit hname =>
    obtain ⟨-, hdrop⟩ := takeWhile_append_of_dropWhile_ne_nil ds hrest
    rw [← hdrop]
    exact .number (cs ++ ds) hdigit hname
  | mark cs hslash hname hquote hraw hdigit =>
    exact .mark (cs ++ ds) hslash hname hquote hraw hdigit

theorem getLast?_cons_takeWhile_ne {p : Char → Bool} (hc : c ≠ '\n') (hp : p '\n' = false)
    (cs : List Char) : (c :: cs.takeWhile p).getLast? ≠ some '\n' := by
  intro hlast
  rcases List.mem_cons.mp (List.mem_of_getLast? hlast) with heq | hmem
  · exact hc heq.symm
  · rw [List.all_eq_true.mp List.all_takeWhile _ hmem] at hp
    cases hp

/-- A lexeme does not end in a line feed. -/
theorem Scans.exists_append (h : Scans c cs s) (hblank : Text.isBlank c = false) :
    ∃ taken, c :: cs = taken ++ s.rest ∧ taken ≠ [] ∧ taken.getLast? ≠ some '\n' := by
  have hfeed : c ≠ '\n' := by
    rintro rfl
    exact absurd hblank (by decide)
  cases h with
  -- The line feed that ends a comment of one line is left in the rest.
  | lineComment body =>
    refine ⟨'/' :: '/' :: body.takeWhile (· != '\n'), by simp, List.cons_ne_nil _ _, ?_⟩
    rw [List.getLast?_cons_cons]
    exact getLast?_cons_takeWhile_ne (by decide) (by decide) body
  | blockComment hcut =>
    rename_i body text rest
    refine ⟨'/' :: '*' :: text ++ ['*', '/'], ?_, List.cons_ne_nil _ _, ?_⟩
    · rw [Text.eq_append_of_cutAt hcut]
      rfl
    · rw [List.getLast?_append]
      exact fun hlast => absurd (Option.some.inj hlast) (by decide)
  | slash => exact ⟨['/'], rfl, List.cons_ne_nil _ _, by decide⟩
  | name cs hname =>
    refine ⟨c :: cs.takeWhile Text.continuesName, by simp, List.cons_ne_nil _ _, ?_⟩
    exact getLast?_cons_takeWhile_ne hfeed (by decide) cs
  | quoted hread =>
    obtain ⟨body, rfl, -⟩ := Literal.read_eq_ok_iff.mp hread
    refine ⟨'"' :: body ++ ['"'], ?_, List.cons_ne_nil _ _, ?_⟩
    · simp
    · rw [List.getLast?_append]
      exact fun hlast => absurd (Option.some.inj hlast) (by decide)
  | raw hcut =>
    rename_i text rest
    refine ⟨'\x60' :: text ++ ['\x60'], ?_, List.cons_ne_nil _ _, ?_⟩
    · rw [Text.eq_append_of_cutAt hcut]
      rfl
    · rw [List.getLast?_append]
      exact fun hlast => absurd (Option.some.inj hlast) (by decide)
  | number cs hdigit hname =>
    refine ⟨c :: cs.takeWhile fun d => d.isAlphanum || d == '.', by simp, List.cons_ne_nil _ _, ?_⟩
    exact getLast?_cons_takeWhile_ne hfeed (by decide) cs
  | mark => exact ⟨[c], rfl, List.cons_ne_nil _ _, by simpa using hfeed⟩

/-! ## All lexemes -/

variable {line last : Nat} {ls : List Lexeme}

theorem lex_blank (hblank : Text.isBlank c = true) :
    lex line (c :: cs) = lex (line + Text.lineFeeds [c]) cs := by
  rw [lex, if_pos hblank]

theorem lex_scan (hblank : Text.isBlank c = false) (hscan : scan c cs = .ok s) :
    lex line (c :: cs) = (ofItem line s.feeds s.item :: (lex (line + s.feeds) s.rest).1,
      (lex (line + s.feeds) s.rest).2) := by
  rw [lex, if_neg (by simp [hblank])]
  split
  · rename_i hfault
    rw [hscan] at hfault
    cases hfault
  · rename_i other hother
    rw [hscan] at hother
    obtain rfl := Except.ok.inj hother
    rfl

theorem lex_fault {fault : Fault} (hblank : Text.isBlank c = false)
    (hscan : scan c cs = .error fault) :
    lex line (c :: cs) = ([], .broken (fault.errorAt line)) := by
  rw [lex, if_neg (by simp [hblank])]
  split
  · rename_i other hother
    obtain rfl := Except.error.inj (hscan.symm.trans hother)
    rfl
  · rename_i hok
    cases hscan.symm.trans hok

/-- The line on which a lexeme ends; that of a token, on which it starts. -/
def lastLine : Lexeme → Nat
  | comment c => c.last
  | token _ line => line

theorem lastLine_ofItem_le (line feeds : Nat) (item : Item) :
    (ofItem line feeds item).lastLine ≤ line + feeds := by
  cases item with
  | comment lines => exact Nat.le_refl _
  | token kind => exact Nat.le_add_right _ _

/-- What is left of a text that ends its last line is again such a text, and not empty. -/
theorem endsLine_rest (hblank : Text.isBlank c = false) (hscan : scan c cs = .ok s)
    (hends : Text.EndsLine (c :: cs)) : Text.EndsLine s.rest ∧ s.rest ≠ [] := by
  obtain ⟨taken, heq, hne, hlast⟩ := (scan_eq_ok_iff.mp hscan).exists_append hblank
  rw [heq] at hends
  exact ⟨hends.of_append, hends.ne_nil_of_append hne hlast⟩

theorem getLast?_cons_of_some {l m : Lexeme} (h : ls.getLast? = some m) :
    (l :: ls).getLast? = some m := by
  rw [List.getLast?_cons, h]
  rfl

/-- A text is lexed the same before another one, which is lexed on its own, when the lexeme at the
very end of the text, if there is one, goes no further in the longer text. -/
theorem lex_append_of_last (h : lex line cs = (ls, .complete last))
    (hlast : ∀ c rest s n, c :: rest <:+ cs → Text.isBlank c = false → Scans c rest s →
      s.rest = [] → ls.getLast? = some (ofItem n s.feeds s.item) →
      Scans c (rest ++ ds) { s with rest := ds }) :
    lex line (cs ++ ds) = (ls ++ (lex last ds).1, (lex last ds).2) := by
  fun_induction lex line cs generalizing ls with
  | case1 line =>
    obtain ⟨rfl, hend⟩ := Prod.mk.inj h
    obtain rfl := Ending.complete.inj hend
    rfl
  | case2 line c cs hblank ih =>
    rw [List.cons_append, lex_blank hblank]
    exact ih h fun d rest s n hsuffix => hlast d rest s n (hsuffix.trans (List.suffix_cons _ _))
  | case3 line c cs hblank fault hscan => cases (Prod.mk.inj h).2
  | case4 line c cs hblank s hscan hle later =>
    rename_i ih
    rw [Bool.not_eq_true] at hblank
    obtain ⟨rfl, hend⟩ := Prod.mk.inj h
    have hscans := scan_eq_ok_iff.mp hscan
    have hrest_lex : lex (line + s.feeds) s.rest =
        ((lex (line + s.feeds) s.rest).1, .complete last) := Prod.ext rfl hend
    -- Only a lexeme at the very end of the text can be another one in the longer text.
    have hlonger : Scans c (cs ++ ds) { s with rest := s.rest ++ ds } := by
      by_cases hnil : s.rest = []
      · rw [hnil]
        refine hlast c cs s line List.suffix_rfl hblank hscans hnil ?_
        simp [later, hnil, lex]
      · exact hscans.append hnil
    have hsuffix : s.rest <:+ c :: cs := by
      obtain ⟨taken, heq, -, -⟩ := hscans.exists_append hblank
      exact ⟨taken, heq.symm⟩
    have hlater := ih hrest_lex fun d rest s' n hd hdblank hdscans hdnil hdlast =>
      hlast d rest s' n (hd.trans hsuffix) hdblank hdscans hdnil (getLast?_cons_of_some hdlast)
    rw [List.cons_append, lex_scan hblank (scan_eq_ok_iff.mpr hlonger)]
    simp only [hlater, List.cons_append]
    rfl

/-- A text that ends its last line is lexed the same whatever follows it, and what follows is lexed
on its own. -/
theorem lex_append (hends : Text.EndsLine cs) (h : lex line cs = (ls, .complete last)) :
    lex line (cs ++ ds) = (ls ++ (lex last ds).1, (lex last ds).2) := by
  refine lex_append_of_last h fun c rest s n hsuffix hblank hscans hnil _ => ?_
  obtain ⟨before, rfl⟩ := hsuffix
  exact absurd hnil (endsLine_rest hblank (scan_eq_ok_iff.mpr hscans) hends.of_append).2

/-- The lexemes of a text that ends its last line end above the line on which the text ends. -/
theorem lex_lines_lt (hends : Text.EndsLine cs) (h : lex line cs = (ls, .complete last)) :
    line ≤ last ∧ (cs ≠ [] → line < last) ∧ ∀ l ∈ ls, l.lastLine < last := by
  fun_induction lex line cs generalizing ls with
  | case1 line =>
    obtain ⟨rfl, hlast⟩ := Prod.mk.inj h
    obtain rfl := Ending.complete.inj hlast
    exact ⟨Nat.le_refl _, fun hne => absurd rfl hne, fun _ hl => absurd hl List.not_mem_nil⟩
  | case2 line c cs hblank ih =>
    have hrest : Text.EndsLine cs := hends.of_cons
    obtain ⟨hle, hlt, hall⟩ := ih hrest h
    refine ⟨by omega, fun _ => ?_, hall⟩
    by_cases hnil : cs = []
    · -- The last line feed of the text.
      subst hnil
      obtain rfl : c = '\n' := hends c rfl
      have hfeeds : Text.lineFeeds ['\n'] = 1 := by decide
      omega
    · have := hlt hnil
      omega
  | case3 line c cs hblank fault hscan => cases (Prod.mk.inj h).2
  | case4 line c cs hblank s hscan hle later =>
    rename_i ih
    rw [Bool.not_eq_true] at hblank
    obtain ⟨hrest, hne⟩ := endsLine_rest hblank hscan hends
    obtain ⟨rfl, hlast⟩ := Prod.mk.inj h
    have hrest_lex : lex (line + s.feeds) s.rest =
        ((lex (line + s.feeds) s.rest).1, .complete last) := Prod.ext rfl hlast
    obtain ⟨-, hlt, hall⟩ := ih hrest hrest_lex
    have hline := hlt hne
    -- The text goes on below the lexeme, so the line feed that ends its line is still to come.
    refine ⟨by omega, fun _ => by omega, fun l hl => ?_⟩
    rcases List.mem_cons.mp hl with rfl | hl
    · exact Nat.lt_of_le_of_lt (lastLine_ofItem_le line s.feeds s.item) hline
    · exact hall l hl

end Lexeme

end GoBuildRules
