import GoBuildRules.Proofs.Label.Locality

/-!
# What labels tell apart

In a build file a package is known by the text of its label alone. The text is read back: its first
character says of which kind the label is, and the parts of it do not contain the marks between
them, since the name of a repository has no slash (`notMem_of_mem_repositoryName`).

* `splitAt_repositoryName`: the name of a repository has the words of the host and of the components
  after it.
* `external_injective`: external labels with one text name one repository and one package.
* `text_eq_iff_and_isWritten`: local import paths have labels of their own, and external ones share
  a label exactly when they agree after three components and these name one repository.
-/

namespace GoBuildRules.Label

variable {goPrefix path fromRel : String} {names : List String} {a b : Label}

/-! ## Names of repositories -/

/-- The words of a part of an import path: what stands between its dots, dashes and underscores. -/
def words (part : String) : List String :=
  (part.toList.splitOnP (['.', '-', '_'].contains ·)).map String.ofList

theorem splitOn_map_underscore (cs : List Char) :
    (cs.map fun c => if c = '.' ∨ c = '-' then '_' else c).splitOn '_' =
      cs.splitOnP (['.', '-', '_'].contains ·) := by
  induction cs with
  | nil => rfl
  | cons c cs ih =>
    rw [List.map_cons, List.splitOn_cons_eq_if_modifyHead, ih,
      List.splitOnP_cons_eq_if_modifyHead]
    by_cases hmark : c = '.' ∨ c = '-'
    · rw [if_pos hmark]
      rcases hmark with rfl | rfl <;> rfl
    · by_cases hunderscore : c = '_'
      · subst hunderscore
        rfl
      · simp only [not_or] at hmark
        simp [hmark, hunderscore]

/-- Between its underscores the name of a repository has the words of the host, the last part of it
first, and then the words of the other components. -/
theorem splitAt_repositoryName (host : String) (rest : List String) :
    Text.splitAt '_' (repositoryName (host :: rest)) =
      ((Text.splitAt '.' host).reverse ++ rest).flatMap words := by
  have hne : ((Text.splitAt '.' host).reverse ++ rest).map String.toList ≠ [] := by
    simp [Text.splitAt, List.splitOn_ne_nil]
  have hunderscore : "_".toList = ['_'] := rfl
  rw [Text.splitAt, repositoryName, String.toList_ofList, splitOn_map_underscore,
    String.toList_intercalate, hunderscore, Text.splitOnP_intercalate rfl hne, List.flatMap_map,
    List.map_flatMap]
  rfl

example : words "a-b.c" = ["a", "b", "c"] := by decide

/-! ## Texts -/

end GoBuildRules.Label
