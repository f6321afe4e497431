import HandlerLint.Proofs.Json.Tokens

/-!
# Written values are read back

The tokens that a value is written with are read as that value, whatever tokens follow
them.  Together with what a written text spells this gives the round trip: the text of a
value, with any space after it, is read as the value.

The reader takes at most two steps for a token, so steps are bounded by twice the number
of tokens throughout.
-/

namespace HandlerLint.Json

variable {steps : Nat} {tokens after rest : List Token}

/-! ## One step of the reader -/

theorem value?_array
    {items : List Json} (h : items? steps tokens = some (items, rest))
    (hopen : tokens.head? ≠ some .rightBracket) :
    value? (steps + 1) (.leftBracket :: tokens) = some (.array items, rest) := by
  rw [value?, h]
  · rfl
  · rintro later rfl
    exact hopen rfl

theorem value?_object
    {members : List (String × Json)} (h : members? steps tokens = some (members, rest))
    (hopen : tokens.head? ≠ some .rightBrace) :
    value? (steps + 1) (.leftBrace :: tokens) = some (.object members, rest) := by
  rw [value?, h]
  · rfl
  · rintro later rfl
    exact hopen rfl

theorem items?_last
    {item : Json} (h : value? steps tokens = some (item, .rightBracket :: rest)) :
    items? (steps + 1) tokens = some ([item], rest) := by
  rw [items?, h]
  rfl

theorem items?_more
    {item : Json} {items : List Json}
    (h : value? steps tokens = some (item, .comma :: after))
    (hafter : items? steps after = some (items, rest)) :
    items? (steps + 1) tokens = some (item :: items, rest) := by
  rw [items?, h]
  change Option.bind (items? steps after) _ = _
  rw [hafter]
  rfl

theorem members?_last
    {name : String} {value : Json}
    (h : value? steps tokens = some (value, .rightBrace :: rest)) :
    members? (steps + 1) (.string name :: .colon :: tokens) = some ([(name, value)], rest) := by
  rw [members?, h]
  rfl

theorem members?_more
    {name : String} {value : Json} {members : List (String × Json)}
    (h : value? steps tokens = some (value, .comma :: after))
    (hafter : members? steps after = some (members, rest)) :
    members? (steps + 1) (.string name :: .colon :: tokens) =
      some ((name, value) :: members, rest) := by
  rw [members?, h]
  change Option.bind (members? steps after) _ = _
  rw [hafter]
  rfl

/-! ## Whole values -/

theorem head?_tokens_ne
    (value : Json) (later : List Token) :
    (value.tokens ++ later).head? ≠ some .rightBracket := by
  match value with
  | .null | .bool _ | .number _ | .string _ => simp [Json.tokens]
  | .array [] | .array (_ :: _) => simp [Json.tokens]
  | .object [] | .object (_ :: _) => simp [Json.tokens]

theorem length_tokens_pos
    (value : Json) :
    0 < value.tokens.length := by
  match value with
  | .null | .bool _ | .number _ | .string _ => simp [Json.tokens]
  | .array [] | .array (_ :: _) => simp [Json.tokens]
  | .object [] | .object (_ :: _) => simp [Json.tokens]

theorem exists_steps_eq
    {bound : Nat} (h : bound < steps) :
    ∃ fewer, steps = fewer + 1 ∧ bound ≤ fewer :=
  ⟨steps - 1, by omega, by omega⟩

mutual

/-- The tokens of a value are read as the value. -/
theorem value?_tokens
    (value : Json) (steps : Nat) (rest : List Token)
    (hsteps : 2 * value.tokens.length ≤ steps) :
    value? steps (value.tokens ++ rest) = some (value, rest) := by
  have hpos := value.length_tokens_pos
  obtain ⟨steps, rfl, hfewer⟩ :=
    exists_steps_eq (show 2 * value.tokens.length - 1 < steps by omega)
  match value with
  | .null | .bool _ | .number _ | .string _ => rfl
  | .array [] | .object [] => rfl
  | .array (item :: items) =>
      have hitems := items?_tokens item items steps rest (by
        simp only [Json.tokens, List.length_cons, List.length_append] at hfewer
        omega)
      have hvalue := value?_array hitems (item.head?_tokens_ne _)
      simpa [Json.tokens] using hvalue
  | .object ((name, value) :: members) =>
      have hmembers := members?_tokens name value members steps rest (by
        simp only [Json.tokens, List.length_cons, List.length_append] at hfewer
        omega)
      have hvalue := value?_object hmembers (by simp)
      simpa [Json.tokens] using hvalue
termination_by steps

/-- The tokens of the items of an array are read as the items. -/
theorem items?_tokens
    (item : Json) (items : List Json) (steps : Nat) (rest : List Token)
    (hsteps : 2 * (item.tokens.length + (laterItems items).length) < steps) :
    items? steps (item.tokens ++ (laterItems items ++ .rightBracket :: rest)) =
      some (item :: items, rest) := by
  obtain ⟨steps, rfl, hfewer⟩ := exists_steps_eq hsteps
  match items with
  | [] => exact items?_last (value?_tokens item steps _ (by omega))
  | next :: items =>
      simp only [laterItems, List.length_cons, List.length_append] at hfewer
      have hafter := items?_tokens next items steps rest (by omega)
      have hitem := value?_tokens item steps
        (.comma :: (next.tokens ++ (laterItems items ++ .rightBracket :: rest))) (by omega)
      simpa [laterItems] using items?_more hitem hafter
termination_by steps

/-- The tokens of the members of an object are read as the members. -/
theorem members?_tokens
    (name : String) (value : Json) (members : List (String × Json)) (steps : Nat)
    (rest : List Token)
    (hsteps : 2 * (value.tokens.length + (laterMembers members).length) < steps) :
    members? steps (.string name :: .colon ::
        (value.tokens ++ (laterMembers members ++ .rightBrace :: rest))) =
      some ((name, value) :: members, rest) := by
  obtain ⟨steps, rfl, hfewer⟩ := exists_steps_eq hsteps
  match members with
  | [] => exact members?_last (value?_tokens value steps _ (by omega))
  | (next, nextValue) :: members =>
      simp only [laterMembers, List.length_cons, List.length_append] at hfewer
      have hafter := members?_tokens next nextValue members steps rest (by omega)
      have hvalue := value?_tokens value steps
        (.comma :: .string next :: .colon ::
          (nextValue.tokens ++ (laterMembers members ++ .rightBrace :: rest))) (by omega)
      simpa [laterMembers] using members?_more hvalue hafter
termination_by steps

end

theorem ofTokens?_tokens
    (value : Json) :
    ofTokens? value.tokens = some value := by
  have hread := value?_tokens value (2 * value.tokens.length + 1) [] (by omega)
  rw [List.append_nil] at hread
  rw [ofTokens?, hread]

/-! ## Texts -/

theorem spells_space
    {space : List Char} (h : ∀ c ∈ space, isSpace c = true) :
    Spells space [] :=
  .space (List.dropWhile_eq_nil_iff.mpr h)

theorem ends_space
    {space : List Char} (h : ∀ c ∈ space, isSpace c = true) :
    Ends space := by
  intro c hc
  rcases eq_of_isSpace (h c (List.mem_of_head? hc)) with rfl | rfl | rfl | rfl
  all_goals exact ⟨rfl, rfl⟩

/-- The text of a value, with any space after it, is read as the value. -/
theorem parse?_render_append
    (value : Json) {space : List Char} (h : ∀ c ∈ space, isSpace c = true) :
    parse? (value.render ++ String.ofList space) = some value := by
  have htext : (value.render ++ String.ofList space).toList = renderAt 0 value ++ space := by
    simp [render]
  have hspells := spells_renderAt value 0 (ends_space h) (spells_space h)
  rw [List.append_nil] at hspells
  rw [parse?, htext, hspells.tokens?_eq]
  exact ofTokens?_tokens value

/-- The text of a value is read as the value. -/
theorem parse?_render
    (value : Json) :
    parse? value.render = some value := by
  have hread := parse?_render_append value (List.forall_mem_nil (isSpace · = true))
  simpa using hread

end HandlerLint.Json
