import GoBuildRules.Constraint.FileName
import GoBuildRules.Proofs.Text.Cut

/-!
# What the suffixes of a stem say

A stem is read from its end, token by token (`NameParts.tokens`). A stem with one more token at its
end, and the test mark after that or not, has this mark, and the platform that the token names with
the one before it (`NameParts.ofStem_append`). The first token is never looked at
(`NameParts.ofStem_first`), and a stem carries the test mark when it ends in the token `test` and
has another token before it (`NameParts.isTest_ofStem_iff`).
-/

namespace GoBuildRules

namespace Platform

/-- A system is one token. -/
theorem underscore_notMem_of_isSystem {s : String} (h : isSystem s = true) : '_' ∉ s.toList := by
  have hall : ∀ s ∈ systems, '_' ∉ s.toList := by decide
  exact hall s (List.contains_iff_mem.mp h)

/-- An architecture is one token. -/
theorem underscore_notMem_of_isArchitecture {s : String} (h : isArchitecture s = true) :
    '_' ∉ s.toList := by
  have hall : ∀ s ∈ architectures, '_' ∉ s.toList := by decide
  exact hall s (List.contains_iff_mem.mp h)

/-- The test mark names no platform. -/
theorem ne_test_of_isSystem {s : String} (h : isSystem s = true) : s ≠ "test" := by
  rintro rfl
  exact absurd h (by decide)

theorem ne_test_of_isArchitecture {s : String} (h : isArchitecture s = true) : s ≠ "test" := by
  rintro rfl
  exact absurd h (by decide)

theorem isSystem_eq_false_of_isArchitecture {s : String} (h : isArchitecture s = true) :
    isSystem s = false := by
  refine Bool.eq_false_iff.mpr fun hsystem => ?_
  rw [isArchitecture_eq_false_of_isSystem hsystem] at h
  cases h

end Platform

namespace NameParts

/-! ## Tokens -/

/-- The tokens of a stem, the last one first. -/
def tokens (stem : String) : List String :=
  (Text.splitAt '_' stem).reverse

variable {stem s token : String} {isTest : Bool}

theorem ofStem_eq (stem : String) :
    ofStem stem =
      { isTest := (dropTest (tokens stem)).1
        system := (platformOf (dropTest (tokens stem)).2).1
        architecture := (platformOf (dropTest (tokens stem)).2).2 } := rfl

theorem tokens_append (s rest : String) : tokens (s ++ "_" ++ rest) = tokens rest ++ tokens s :=
  (congrArg List.reverse (Text.splitAt_append_separator '_' s rest)).trans List.reverse_append

theorem tokens_of_notMem (h : '_' ∉ s.toList) : tokens s = [s] :=
  congrArg List.reverse (Text.splitAt_of_notMem h)

theorem exists_tokens_eq_cons (s : String) : ∃ last rest, tokens s = last :: rest :=
  List.exists_cons_of_ne_nil (List.reverse_ne_nil_iff.mpr (Text.splitAt_ne_nil '_' s))

theorem tokens_append_token (s : String) (h : '_' ∉ token.toList) :
    tokens (s ++ "_" ++ token) = token :: tokens s := by
  rw [tokens_append, tokens_of_notMem h]
  rfl

/-- A stem of several tokens ends in the last one. -/
theorem exists_append_of_tokens {last before : String} {rest : List String}
    (h : tokens s = last :: before :: rest) :
    ∃ base, s = base ++ "_" ++ last ∧ tokens base = before :: rest := by
  have htokens : Text.splitAt '_' s = (before :: rest).reverse ++ [last] := by
    rw [← List.reverse_cons, ← h, tokens, List.reverse_reverse]
  have hs : s = "_".intercalate (before :: rest).reverse ++ "_" ++ last := by
    calc s = "_".intercalate ((before :: rest).reverse ++ [last]) := by
          rw [← htokens]
          exact (Text.intercalate_splitAt '_' s).symm
      _ = "_".intercalate (before :: rest).reverse ++ "_" ++ last := by
          rw [String.intercalate_append_of_ne_nil (by simp) (by simp),
            String.intercalate_singleton]
  have hlast : '_' ∉ last.toList :=
    Text.notMem_of_mem_splitAt (htokens ▸ List.mem_append_right _ List.mem_cons_self)
  refine ⟨_, hs, ?_⟩
  rw [hs, tokens_append_token _ hlast] at h
  exact (List.cons.inj h).2

/-! ## The test mark -/

/-- The end of a stem that makes it a test or not. -/
def testMark (isTest : Bool) : String :=
  if isTest then "_test" else ""

theorem append_test (s : String) : s ++ "_test" = s ++ "_" ++ "test" := by
  rw [String.append_assoc]
  rfl

theorem dropTest_fst_iff {tokens : List String} :
    (dropTest tokens).1 = true ↔ ∃ before rest, tokens = "test" :: before :: rest := by
  match tokens with
  | [] => simp [dropTest]
  | [token] => simp [dropTest]
  | last :: before :: rest =>
    by_cases hlast : last = "test" <;> simp [dropTest, hlast]

/-- A test is a file whose stem ends in `_test`. -/
theorem isTest_ofStem_iff : (ofStem stem).isTest = true ↔ ∃ base, stem = base ++ "_test" := by
  rw [ofStem_eq, dropTest_fst_iff]
  constructor
  · rintro ⟨before, rest, htokens⟩
    obtain ⟨base, rfl, -⟩ := exists_append_of_tokens htokens
    exact ⟨base, (append_test base).symm⟩
  · rintro ⟨base, rfl⟩
    obtain ⟨before, rest, hbase⟩ := exists_tokens_eq_cons base
    exact ⟨before, rest, by rw [append_test, tokens_append_token base (by decide), hbase]⟩

/-- Of the test marks at the end of a stem one is taken off. -/
theorem dropTest_tokens (s : String) (h : '_' ∉ token.toList)
    (hlast : isTest = true ∨ token ≠ "test") :
    dropTest (tokens (s ++ "_" ++ token ++ testMark isTest)) = (isTest, token :: tokens s) := by
  cases isTest with
  | true =>
    rw [testMark, if_pos rfl, append_test, tokens_append_token _ (by decide),
      tokens_append_token s h, dropTest, if_pos rfl]
  | false =>
    have hmark : s ++ "_" ++ token ++ testMark false = s ++ "_" ++ token := String.append_empty
    obtain ⟨before, rest, hs⟩ := exists_tokens_eq_cons s
    have hne : token ≠ "test" := hlast.resolve_left Bool.false_ne_true
    rw [hmark, tokens_append_token s h, hs, dropTest, if_neg hne]

/-- A stem of one token names no platform. -/
theorem ofStem_of_notMem (h : '_' ∉ s.toList) : ofStem (s ++ testMark isTest) = { isTest } := by
  cases isTest with
  | true =>
    rw [testMark, if_pos rfl, append_test, ofStem_eq, tokens_append_token s (by decide),
      tokens_of_notMem h]
    rfl
  | false =>
    rw [testMark, if_neg Bool.false_ne_true, String.append_empty]
    exact ofStem_of_not_mem h

/-- A stem with one more token says what the last tokens name. -/
theorem ofStem_append (s : String) (h : '_' ∉ token.toList)
    (hlast : isTest = true ∨ token ≠ "test") :
    ofStem (s ++ "_" ++ token ++ testMark isTest) =
      { isTest := isTest
        system := (platformOf (token :: tokens s)).1
        architecture := (platformOf (token :: tokens s)).2 } := by
  rw [ofStem_eq, dropTest_tokens s h hlast]

/-! ## The platform -/

theorem platformOf_of_isSystem (s : String) (h : Platform.isSystem token = true) :
    platformOf (token :: tokens s) = (some token, none) := by
  obtain ⟨before, rest, hs⟩ := exists_tokens_eq_cons s
  simp [hs, platformOf, h, Platform.isArchitecture_eq_false_of_isSystem h]

theorem platformOf_of_isArchitecture {base system : String}
    (h : Platform.isArchitecture token = true) (hsystem : Platform.isSystem system = true) :
    platformOf (token :: tokens (base ++ "_" ++ system)) = (some system, some token) := by
  obtain ⟨before, rest, hbase⟩ := exists_tokens_eq_cons base
  rw [tokens_append_token base (Platform.underscore_notMem_of_isSystem hsystem), hbase]
  simp [platformOf, h, hsystem]

/-- The token before an architecture is a system only where another token stands before it. -/
theorem platformOf_of_isArchitecture_of_ne (h : Platform.isArchitecture token = true)
    (hs : ∀ base system, Platform.isSystem system = true → s ≠ base ++ "_" ++ system) :
    platformOf (token :: tokens s) = (none, some token) := by
  have hsystem := Platform.isSystem_eq_false_of_isArchitecture h
  obtain ⟨before, rest, htokens⟩ := exists_tokens_eq_cons s
  cases rest with
  | nil => simp [htokens, platformOf, h, hsystem]
  | cons first rest =>
    obtain ⟨base, hbase, -⟩ := exists_append_of_tokens htokens
    have hbefore : Platform.isSystem before = false :=
      Bool.eq_false_iff.mpr fun hbefore => hs base before hbefore hbase
    simp [htokens, platformOf, h, hsystem, hbefore]

theorem platformOf_of_neither (s : String) (hsystem : Platform.isSystem token = false)
    (harchitecture : Platform.isArchitecture token = false) :
    platformOf (token :: tokens s) = (none, none) := by
  obtain ⟨before, rest, hs⟩ := exists_tokens_eq_cons s
  simp [hs, platformOf, hsystem, harchitecture]

/-! ## The first token -/

theorem dropTest_concat (t : String) (ts : List String) (x : String) :
    dropTest (t :: ts ++ [x]) =
      if t = "test" then (true, ts ++ [x]) else (false, t :: ts ++ [x]) := by
  cases ts <;> rfl

theorem platformOf_concat (ts : List String) (x y : String) :
    platformOf (ts ++ [x]) = platformOf (ts ++ [y]) := by
  match ts with
  | [] => rfl
  | [t] => rfl
  | t :: u :: rest => simp [platformOf]

/-- The first token of a stem is not read. -/
theorem ofStem_first {first other : String} (hfirst : '_' ∉ first.toList)
    (hother : '_' ∉ other.toList) (rest : String) :
    ofStem (first ++ "_" ++ rest) = ofStem (other ++ "_" ++ rest) := by
  obtain ⟨t, ts, hrest⟩ := exists_tokens_eq_cons rest
  rw [ofStem_eq, ofStem_eq, tokens_append, tokens_append, tokens_of_notMem hfirst,
    tokens_of_notMem hother, hrest, dropTest_concat, dropTest_concat]
  split
  · rw [platformOf_concat ts first other]
  · rw [platformOf_concat (t :: ts) first other]

end NameParts

end GoBuildRules
