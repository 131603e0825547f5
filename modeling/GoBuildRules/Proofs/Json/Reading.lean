import GoBuildRules.Proofs.Json.Tokens

/-!
# Reading JSON text

Tokens are read one after the other, with a stack of the arrays and objects that have been opened
(`Json.Reading`). After the tokens of a value the value has been read, whatever stands on the stack
(`Json.Reading.run_tokens`), so the indented text of a value is read back (`Json.read?_pretty`).
-/

namespace GoBuildRules.Json

/-- An array or object that has been opened, with what has been read of it before the value that is
to follow. -/
inductive Frame where
  | array (elements : List Json)
  | object (members : List (String × Json)) (key : String)

/-- How far the reading of a value has come, inside the arrays and objects of a stack. -/
inductive Reading where
  | expectValue (stack : List Frame)
  | arrayOpened (stack : List Frame)
  | objectOpened (stack : List Frame)
  /-- The key of one more member has to follow. -/
  | expectKey (members : List (String × Json)) (stack : List Frame)
  | expectColon (members : List (String × Json)) (key : String) (stack : List Frame)
  | done (v : Json) (stack : List Frame)

namespace Reading

/-- What the first token of a value leads to. -/
def start (stack : List Frame) : Token → Option Reading
  | .bool value => some (done (.bool value) stack)
  | .string value => some (done (.string value) stack)
  | .arrayStart => some (arrayOpened stack)
  | .objectStart => some (objectOpened stack)
  | _ => none

/-- What one more token leads to. -/
def next : Reading → Token → Option Reading
  | expectValue stack, token => start stack token
  | arrayOpened stack, .arrayEnd => some (done (.array []) stack)
  | arrayOpened stack, token => start (.array [] :: stack) token
  | objectOpened stack, .objectEnd => some (done (.object []) stack)
  | objectOpened stack, .string key => some (expectColon [] key stack)
  | expectKey members stack, .string key => some (expectColon members key stack)
  | expectColon members key stack, .colon => some (expectValue (.object members key :: stack))
  | done v (.array elements :: stack), .comma =>
    some (expectValue (.array (elements ++ [v]) :: stack))
  | done v (.array elements :: stack), .arrayEnd => some (done (.array (elements ++ [v])) stack)
  | done v (.object members key :: stack), .comma => some (expectKey (members ++ [(key, v)]) stack)
  | done v (.object members key :: stack), .objectEnd =>
    some (done (.object (members ++ [(key, v)])) stack)
  | _, _ => none

/-- What tokens lead to, one after the other. -/
def run (reading : Reading) (ts : List Token) : Option Reading :=
  ts.foldlM next reading

/-- The value that has been read, when nothing is open. -/
def result? : Reading → Option Json
  | done v [] => some v
  | _ => none

variable {reading between : Reading} {stack : List Frame} {v : Json} {ts more : List Token}

theorem run_cons {token : Token} (h : reading.next token = some between) :
    reading.run (token :: ts) = between.run ts := by
  rw [run, List.foldlM_cons, h]
  rfl

theorem run_append (h : reading.run ts = some between) :
    reading.run (ts ++ more) = between.run more := by
  rw [run] at h
  rw [run, List.foldlM_append, h]
  rfl

/-- Parts with commas between them are read one after the other when each of them is read, with a
comma or with the closing bracket after it. -/
theorem run_intercalate {α : Type} (whole : List α → Json) {tokensOf : α → List Token}
    {items : List α} {last : Token} {expecting : List α → Reading}
    (hcomma : ∀ before, ∀ item ∈ items,
      (expecting before).run (tokensOf item ++ [.comma]) = some (expecting (before ++ [item])))
    (hlast : ∀ before, ∀ item ∈ items,
      (expecting before).run (tokensOf item ++ [last]) =
        some (done (whole (before ++ [item])) stack))
    (hne : items ≠ []) (before : List α) :
    (expecting before).run ([.comma].intercalate (items.map tokensOf) ++ [last]) =
      some (done (whole (before ++ items)) stack) := by
  induction items generalizing before with
  | nil => exact absurd rfl hne
  | cons item items ih =>
    cases items with
    | nil =>
      rw [List.map_singleton, List.intercalate_singleton]
      exact hlast before item List.mem_cons_self
    | cons second items =>
      have hrest := ih (fun b d hd => hcomma b d (List.mem_cons_of_mem _ hd))
        (fun b d hd => hlast b d (List.mem_cons_of_mem _ hd)) (List.cons_ne_nil _ _)
        (before ++ [item])
      rw [List.append_assoc, List.singleton_append] at hrest
      rw [List.map_cons, List.map_cons, List.intercalate_cons_cons, List.append_assoc,
        run_append (hcomma before item List.mem_cons_self)]
      exact hrest

/-- The first value of an array is read as one that has to follow. -/
theorem run_arrayOpened (v : Json) (parts : List (List Token)) :
    (arrayOpened stack).run ([.comma].intercalate (v.tokens :: parts) ++ ts) =
      (expectValue (.array [] :: stack)).run ([.comma].intercalate (v.tokens :: parts) ++ ts) := by
  have hfirst : ∀ more, (arrayOpened stack).run (v.tokens ++ more) =
      (expectValue (.array [] :: stack)).run (v.tokens ++ more) := fun more => by
    cases v <;> rfl
  cases parts with
  | nil => rw [List.intercalate_singleton, hfirst]
  | cons part parts =>
    rw [List.intercalate_cons_cons, List.append_assoc, List.append_assoc, hfirst]

/-- The key of the first member of an object is read as one that has to follow. -/
theorem run_objectOpened (member : String × Json) (parts : List (List Token)) :
    (objectOpened stack).run ([.comma].intercalate (tokensOfMember member :: parts) ++ ts) =
      (expectKey [] stack).run ([.comma].intercalate (tokensOfMember member :: parts) ++ ts) := by
  cases parts with
  | nil =>
    rw [List.intercalate_singleton]
    rfl
  | cons part parts =>
    rw [List.intercalate_cons_cons]
    rfl

/-- The token after a value goes on from the value that has been read. -/
theorem run_tokens_concat (h : (expectValue stack).run v.tokens = some (done v stack))
    {token : Token} (hnext : (done v stack).next token = some between) :
    (expectValue stack).run (v.tokens ++ [token]) = some between := by
  rw [run_append h, run_cons hnext]
  rfl

/-- After the tokens of a value the value has been read. -/
theorem run_tokens (v : Json) (stack : List Frame) :
    (expectValue stack).run v.tokens = some (done v stack) := by
  induction v using parts_induction generalizing stack with
  | bool value => rfl
  | string value => rfl
  | array elements ih =>
    cases elements with
    | nil => rfl
    | cons first rest =>
      have hcomma : ∀ before, ∀ v ∈ first :: rest,
          (expectValue (.array before :: stack)).run (v.tokens ++ [.comma]) =
            some (expectValue (.array (before ++ [v]) :: stack)) :=
        fun before v hv => run_tokens_concat (ih v hv _) rfl
      have hlast : ∀ before, ∀ v ∈ first :: rest,
          (expectValue (.array before :: stack)).run (v.tokens ++ [.arrayEnd]) =
            some (done (.array (before ++ [v])) stack) :=
        fun before v hv => run_tokens_concat (ih v hv _) rfl
      have hread := run_intercalate .array hcomma hlast (List.cons_ne_nil _ _) []
      rw [List.map_cons, ← run_arrayOpened, ← List.map_cons, ← elementTokens_eq_map] at hread
      rw [tokens, run_cons rfl]
      exact hread
  | object members ih =>
    cases members with
    | nil => rfl
    | cons first rest =>
      -- The key and the colon put the member on the stack; its value is read there.
      have hcomma : ∀ before, ∀ member ∈ first :: rest,
          (expectKey before stack).run (tokensOfMember member ++ [.comma]) =
            some (expectKey (before ++ [member]) stack) := fun before member hmember =>
        run_tokens_concat (ih member hmember (.object before member.1 :: stack)) rfl
      have hlast : ∀ before, ∀ member ∈ first :: rest,
          (expectKey before stack).run (tokensOfMember member ++ [.objectEnd]) =
            some (done (.object (before ++ [member])) stack) := fun before member hmember =>
        run_tokens_concat (ih member hmember (.object before member.1 :: stack)) rfl
      have hread := run_intercalate .object hcomma hlast (List.cons_ne_nil _ _) []
      rw [List.map_cons, ← run_objectOpened, ← List.map_cons, ← memberTokens_eq_map] at hread
      rw [tokens, run_cons rfl]
      exact hread

end Reading

/-- The value that JSON text spells. -/
def read? (text : String) : Option Json :=
  (lex text.toList).bind fun ts => ((Reading.expectValue []).run ts).bind Reading.result?

/-- **The indented text of a value is read back.** -/
theorem read?_pretty (v : Json) : read? v.pretty = some v := by
  rw [read?, lex_pretty, Option.bind_some, Reading.run_tokens]
  rfl

end GoBuildRules.Json
