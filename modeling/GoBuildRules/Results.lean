/-!
# Lists of results

Work that goes on after a failure gives a list of results, each a value or an error. `values` and
`errors` take the two apart, both in the order of the list.
-/

namespace GoBuildRules.Results

variable {α ε : Type}

/-- The values among the results. -/
def values (results : List (Except ε α)) : List α :=
  results.filterMap Except.toOption

/-- The error of a result, if it is one. -/
def error? : Except ε α → Option ε
  | .error e => some e
  | .ok _ => none

/-- The errors among the results. -/
def errors (results : List (Except ε α)) : List ε :=
  results.filterMap error?

theorem mem_values_iff {results : List (Except ε α)} {value : α} :
    value ∈ values results ↔ .ok value ∈ results := by
  rw [values, List.mem_filterMap]
  constructor
  · rintro ⟨result, hresult, hvalue⟩
    cases result with
    | error e => cases hvalue
    | ok v => rwa [← Option.some.inj hvalue]
  · intro h
    exact ⟨.ok value, h, rfl⟩

theorem mem_errors_iff {results : List (Except ε α)} {e : ε} :
    e ∈ errors results ↔ .error e ∈ results := by
  rw [errors, List.mem_filterMap]
  constructor
  · rintro ⟨result, hresult, he⟩
    cases result with
    | error d => rwa [← Option.some.inj he]
    | ok value => cases he
  · intro h
    exact ⟨.error e, h, rfl⟩

end GoBuildRules.Results
