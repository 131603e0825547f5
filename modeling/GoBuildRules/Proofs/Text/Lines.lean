import Mathlib.Data.List.Basic
import GoBuildRules.Text.Blank
import GoBuildRules.Text.Lines

/-!
# Lines and blanks

The lines of a text come from its parts (`lines_append_cons`), and blanks at the ends of a text do
not matter to what is left when it is trimmed (`trim_append_blanks`, `trim_blanks_append`). So a
line is trimmed to the same whether a carriage return was dropped from it or not
(`trim_dropReturn`).
Fields that are written with blanks between them are the fields of the text (`fields_run_append`).
After a text that ends its last line the lines of what follows are lines (`EndsLine.lines_append`).
-/

namespace GoBuildRules.Text

variable {cs gap : List Char} {c : Char}

/-! ## Blanks at the ends -/

theorem dropWhile_eq_nil_of_blanks (h : ∀ c ∈ gap, isBlank c = true) :
    gap.dropWhile isBlank = [] := by
  have hdrop : (gap ++ []).dropWhile isBlank = [] := List.dropWhile_append_of_pos h
  rwa [List.append_nil] at hdrop

theorem dropWhile_eq_self_of_head (h : ∀ c ∈ cs.head?, isBlank c = false) :
    cs.dropWhile isBlank = cs := by
  cases cs with
  | nil => rfl
  | cons c cs => exact List.dropWhile_cons_of_neg (by simp [h c rfl])

theorem trim_blanks_append (h : ∀ c ∈ gap, isBlank c = true) : trim (gap ++ cs) = trim cs := by
  rw [trim, List.dropWhile_append_of_pos h, trim]

theorem trim_append_blanks (h : ∀ c ∈ gap, isBlank c = true) : trim (cs ++ gap) = trim cs := by
  rw [trim, trim, List.dropWhile_append]
  split
  · rename_i hempty
    rw [dropWhile_eq_nil_of_blanks h, List.isEmpty_iff.mp hempty]
  · have hreverse : ∀ c ∈ gap.reverse, isBlank c = true := fun c hc => h c (List.mem_reverse.mp hc)
    rw [List.reverse_append, List.dropWhile_append_of_pos hreverse]

/-- A first character that is no blank stays, and the rest is trimmed at its end alone. -/
theorem trim_cons (h : isBlank c = false) :
    trim (c :: cs) = c :: (cs.reverse.dropWhile isBlank).reverse := by
  rw [trim, List.dropWhile_cons_of_neg (by simp [h]), List.reverse_cons, List.dropWhile_append]
  split
  · rename_i hempty
    rw [List.isEmpty_iff.mp hempty, List.dropWhile_cons_of_neg (by simp [h])]
    rfl
  · rw [List.reverse_append]
    rfl

theorem trim_cons_cons {d : Char} (h : isBlank c = false) (hd : isBlank d = false) :
    trim (c :: d :: cs) = c :: trim (d :: cs) := by
  rw [trim_cons h, trim, List.dropWhile_cons_of_neg (by simp [hd])]

/-- A text that neither starts nor ends with a blank is not changed. -/
theorem trim_eq_self (hhead : ∀ c ∈ cs.head?, isBlank c = false)
    (hlast : ∀ c ∈ cs.getLast?, isBlank c = false) : trim cs = cs := by
  have hreverse : ∀ c ∈ cs.reverse.head?, isBlank c = false := by
    rwa [List.head?_reverse]
  rw [trim, dropWhile_eq_self_of_head hhead, dropWhile_eq_self_of_head hreverse,
    List.reverse_reverse]

theorem trim_dropReturn (line : List Char) : trim (dropReturn line) = trim line := by
  rw [dropReturn]
  split
  · rename_i hlast
    obtain ⟨init, rfl⟩ := List.getLast?_eq_some_iff.mp hlast
    have hreturn : ∀ c ∈ ['\r'], isBlank c = true := List.forall_mem_singleton.mpr (by decide)
    rw [List.dropLast_concat, trim_append_blanks hreturn]
  · rfl

theorem forall_mem_dropWhile_iff {p : Char → Bool} :
    (∀ c ∈ cs.dropWhile p, p c = true) ↔ ∀ c ∈ cs, p c = true := by
  constructor
  · intro h c hc
    rw [← List.takeWhile_append_dropWhile (p := p) (l := cs)] at hc
    rcases List.mem_append.mp hc with hc | hc
    · exact List.all_eq_true.mp List.all_takeWhile c hc
    · exact h c hc
  · exact fun h c hc => h c ((List.dropWhile_suffix p).subset hc)

/-- Only a text of blanks is trimmed to blanks. -/
theorem forall_mem_trim_iff :
    (∀ c ∈ trim cs, isBlank c = true) ↔ ∀ c ∈ cs, isBlank c = true := by
  rw [trim]
  simp only [List.mem_reverse, forall_mem_dropWhile_iff]

/-! ## Fields -/

section Fields

variable {run : List Char}

theorem fields_blanks_append (h : ∀ c ∈ gap, isBlank c = true) :
    fields (gap ++ cs) = fields cs := by
  induction gap with
  | nil => rfl
  | cons c gap ih =>
    have hc : isBlank c = true := h c List.mem_cons_self
    have hgap := ih fun d hd => h d (List.mem_cons_of_mem _ hd)
    have hsplit : ([] ++ c :: (gap ++ cs)).splitOnP isBlank = [] :: (gap ++ cs).splitOnP isBlank :=
      List.splitOnP_append_cons_of_forall_mem (fun _ h => absurd h List.not_mem_nil) c hc _
    rw [List.nil_append] at hsplit
    rw [List.cons_append, fields, hsplit, ← hgap]
    rfl

theorem fields_run (hne : run ≠ []) (h : ∀ c ∈ run, isBlank c = false) : fields run = [run] := by
  obtain ⟨c, run, rfl⟩ := List.exists_cons_of_ne_nil hne
  rw [fields, List.splitOnP_eq_singleton h]
  rfl

/-- A run of characters that are no blanks is a field when blanks follow it. -/
theorem fields_run_append (hne : run ≠ []) (h : ∀ c ∈ run, isBlank c = false)
    (hgap_ne : gap ≠ []) (hgap : ∀ c ∈ gap, isBlank c = true) :
    fields (run ++ (gap ++ cs)) = run :: fields cs := by
  obtain ⟨b, gap, rfl⟩ := List.exists_cons_of_ne_nil hgap_ne
  have hsplit : (run ++ b :: (gap ++ cs)).splitOnP isBlank = run :: (gap ++ cs).splitOnP isBlank :=
    List.splitOnP_append_cons_of_forall_mem h b (hgap b List.mem_cons_self) (gap ++ cs)
  have hrest : fields (gap ++ cs) = fields cs :=
    fields_blanks_append fun c hc => hgap c (List.mem_cons_of_mem _ hc)
  rw [List.cons_append, fields, hsplit, ← hrest, fields,
    List.filter_cons_of_pos (by simpa using hne)]

theorem fields_append_blanks (h : ∀ c ∈ gap, isBlank c = true) :
    fields (cs ++ gap) = fields cs := by
  cases gap with
  | nil => rw [List.append_nil]
  | cons b gap =>
    have hrest : fields (gap ++ []) = fields [] :=
      fields_blanks_append fun c hc => h c (List.mem_cons_of_mem _ hc)
    rw [List.append_nil, fields, fields_nil] at hrest
    rw [fields, List.splitOnP_append_cons cs gap (h b List.mem_cons_self), List.filter_append,
      hrest, List.append_nil, fields]

/-- Without the blanks at its end a text has the same fields. -/
theorem fields_dropWhile_reverse (cs : List Char) :
    fields (cs.reverse.dropWhile isBlank).reverse = fields cs := by
  have hsplit := congrArg List.reverse
    (List.takeWhile_append_dropWhile (p := isBlank) (l := cs.reverse))
  rw [List.reverse_append, List.reverse_reverse] at hsplit
  have hblank : ∀ c ∈ (cs.reverse.takeWhile isBlank).reverse, isBlank c = true := fun c hc =>
    List.all_eq_true.mp List.all_takeWhile c (List.mem_reverse.mp hc)
  conv_rhs => rw [← hsplit]
  exact (fields_append_blanks hblank).symm

end Fields

/-! ## Lines -/

theorem splitOn_append_cons (cs ds : List Char) :
    (cs ++ '\n' :: ds).splitOn '\n' = cs.splitOn '\n' ++ ds.splitOn '\n' :=
  List.splitOnP_append_cons cs ds (beq_self_eq_true '\n')

/-- The lines before a line feed are lines whatever follows it. -/
theorem lines_append_cons (cs ds : List Char) :
    lines (cs ++ '\n' :: ds) = (cs.splitOn '\n').map dropReturn ++ lines ds := by
  have hne : ds.splitOn '\n' ≠ [] := List.splitOn_ne_nil '\n' ds
  simp only [lines, splitOn_append_cons, List.dropLast_append_of_ne_nil hne,
    List.getLast?_append_of_ne_nil _ hne, List.map_append, List.append_assoc]

theorem splitOn_of_notMem (h : '\n' ∉ cs) : cs.splitOn '\n' = [cs] :=
  List.splitOnP_eq_singleton fun c hc => by
    rw [beq_eq_false_iff_ne]
    rintro rfl
    exact h hc

/-- A text without line feeds is one line, unless it is empty. -/
theorem lines_of_notMem (h : '\n' ∉ cs) : lines cs = if cs.isEmpty then [] else [cs] := by
  rw [lines, splitOn_of_notMem h]
  cases cs <;> rfl

/-- A line before a line feed, and then the other lines. -/
theorem lines_line_append (h : '\n' ∉ cs) (ds : List Char) :
    lines (cs ++ '\n' :: ds) = dropReturn cs :: lines ds := by
  rw [lines_append_cons, splitOn_of_notMem h]
  rfl

/-- A text that is not empty has a first line, up to its first line feed. -/
theorem exists_lines_eq_cons (hne : cs ≠ []) :
    ∃ first rest, lines cs = first :: rest ∧ trim first = trim (cs.takeWhile (· != '\n')) := by
  have hnone : '\n' ∉ cs.takeWhile (· != '\n') := fun hmem => by
    simpa using List.all_eq_true.mp List.all_takeWhile _ hmem
  have hsplit := List.takeWhile_append_dropWhile (p := (· != '\n')) (l := cs)
  -- The first line is the whole text, or a line feed ends it.
  cases hdrop : cs.dropWhile (· != '\n') with
  | nil =>
    rw [hdrop, List.append_nil] at hsplit
    rw [hsplit] at hnone ⊢
    obtain ⟨c, cs, rfl⟩ := List.exists_cons_of_ne_nil hne
    exact ⟨c :: cs, [], lines_of_notMem hnone, rfl⟩
  | cons d rest =>
    obtain rfl : d = '\n' := by
      have hhead := List.head?_dropWhile_not (· != '\n') cs
      rw [hdrop] at hhead
      simpa using hhead
    rw [hdrop] at hsplit
    refine ⟨_, lines rest, ?_, trim_dropReturn _⟩
    rw [← lines_line_append hnone rest, hsplit]

/-! ## Line feeds -/

theorem lineFeeds_append (cs ds : List Char) :
    lineFeeds (cs ++ ds) = lineFeeds cs + lineFeeds ds :=
  List.count_append

theorem lineFeeds_eq_zero (h : '\n' ∉ cs) : lineFeeds cs = 0 :=
  List.count_eq_zero.mpr h

/-- Marks around a text hold no line feed of it. -/
theorem lineFeeds_between {opening closing : List Char} (hopening : '\n' ∉ opening)
    (hclosing : '\n' ∉ closing) (cs : List Char) :
    lineFeeds (opening ++ cs ++ closing) = lineFeeds cs := by
  rw [lineFeeds_append, lineFeeds_append, lineFeeds_eq_zero hopening, lineFeeds_eq_zero hclosing,
    Nat.zero_add, Nat.add_zero]

/-! ## Ended lines -/

section EndsLine

variable {ds rest before : List Char}

/-- The text is empty, or its last line is ended. -/
def EndsLine (cs : List Char) : Prop :=
  ∀ c ∈ cs.getLast?, c = '\n'

theorem EndsLine.nil : EndsLine [] := by
  intro c hc
  cases hc

theorem EndsLine.of_append (h : EndsLine (before ++ rest)) : EndsLine rest := by
  intro c hc
  refine h c ?_
  rw [List.getLast?_append, Option.mem_def.mp hc]
  rfl

theorem EndsLine.of_cons {c : Char} (h : EndsLine (c :: cs)) : EndsLine cs :=
  EndsLine.of_append (List.singleton_append ▸ h)

/-- What follows a part that does not end a line is not empty. -/
theorem EndsLine.ne_nil_of_append (h : EndsLine (before ++ rest)) (hne : before ≠ [])
    (hlast : before.getLast? ≠ some '\n') : rest ≠ [] := by
  rintro rfl
  rw [List.append_nil] at h
  have hsome := List.getLast?_eq_some_getLast hne
  rw [hsome] at hlast
  exact hlast (congrArg some (h _ hsome))

theorem EndsLine.append (h : EndsLine rest) (hne : rest ≠ []) :
    EndsLine (before ++ rest) := by
  intro c hc
  rw [List.getLast?_append_of_ne_nil before hne] at hc
  exact h c hc

theorem EndsLine.feed_cons (h : EndsLine cs) : EndsLine ('\n' :: cs) := by
  cases cs with
  | nil =>
    rintro _ ⟨⟩
    rfl
  | cons c cs =>
    show EndsLine (['\n'] ++ c :: cs)
    exact h.append (List.cons_ne_nil c cs)

theorem EndsLine.lines_append {top : List Char} (h : EndsLine top) (cs : List Char) :
    lines (top ++ cs) = lines top ++ lines cs := by
  rcases List.eq_nil_or_concat' top with rfl | ⟨init, c, rfl⟩
  · rfl
  · obtain rfl : c = '\n' := h c List.getLast?_concat
    have htop := lines_append_cons init []
    rw [lines_nil, List.append_nil] at htop
    rw [List.append_assoc, List.singleton_append, lines_append_cons, htop]

theorem endsLine_concat (cs : List Char) : EndsLine (cs ++ ['\n']) := by
  intro c hc
  rw [List.getLast?_concat] at hc
  exact (Option.some.inj hc).symm

/-- A text can be cut after the lines at its start that pass a test. -/
theorem exists_cut_of_takeWhile (p : List Char → Bool) (cs : List Char) :
    ∃ top rest, cs = top ++ rest ∧ lines top = (lines cs).takeWhile p ∧
      (rest ≠ [] → EndsLine top) := by
  -- By length, since each step takes a whole line away.
  induction hlength : cs.length using Nat.strongRecOn generalizing cs with | _ n ih =>
  by_cases hfeed : '\n' ∈ cs
  · obtain ⟨line, later, rfl, hline⟩ := List.eq_append_cons_of_mem hfeed
    rw [lines_line_append hline]
    cases hp : p (dropReturn line) with
    | false =>
      refine ⟨[], _, rfl, ?_, fun _ => EndsLine.nil⟩
      rw [List.takeWhile_cons_of_neg (by simp [hp]), lines_nil]
    | true =>
      have hshorter : later.length < n := by
        rw [← hlength, List.length_append, List.length_cons]
        omega
      obtain ⟨top, rest, rfl, htop, hends⟩ := ih _ hshorter later rfl
      refine ⟨line ++ '\n' :: top, rest, by simp, ?_, fun hne => ?_⟩
      · rw [lines_line_append hline, htop, List.takeWhile_cons_of_pos hp]
      · exact (hends hne).feed_cons.append (List.cons_ne_nil _ _)
  · rw [lines_of_notMem hfeed]
    by_cases hp : cs = [] ∨ p cs = true
    · refine ⟨cs, [], (List.append_nil cs).symm, ?_, fun hne => absurd rfl hne⟩
      rw [lines_of_notMem hfeed]
      rcases hp with rfl | hp
      · rfl
      · split
        · rfl
        · rw [List.takeWhile_cons_of_pos hp, List.takeWhile_nil]
    · obtain ⟨hne, hp⟩ := not_or.mp hp
      refine ⟨[], cs, rfl, ?_, fun _ => EndsLine.nil⟩
      rw [if_neg (by simpa using hne), List.takeWhile_cons_of_neg hp, lines_nil]

end EndsLine

end GoBuildRules.Text
