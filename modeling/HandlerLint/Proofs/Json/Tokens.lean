import Mathlib.Data.List.TakeWhile
import HandlerLint.Json.Parse

/-!
# The tokens of a written value

A written value is a text of tokens with layout between them.  `Spells` says which tokens
a text is made of and knows neither steps nor indentation; the reader of tokens finds
exactly the tokens that a text spells.

A number or a word goes on as long as its characters do, so what is said of a value holds
for any text after it that does not continue it.
-/

namespace HandlerLint.Json

/-! ## Texts and their tokens -/

/-- A text is made of some tokens, with nothing but space between and after them. -/
inductive Spells : List Char → List Token → Prop
  | space {text : List Char} :
      text.dropWhile isSpace = [] → Spells text []
  | token {text rest : List Char} {token : Token} {tokens : List Token} :
      token? (text.dropWhile isSpace) = some (token, rest) →
      Spells rest tokens →
        Spells text (token :: tokens)

/-- A text does not go on with the characters of a number or a word. -/
def Ends (text : List Char) : Prop :=
  ∀ c, text.head? = some c → c.isDigit = false ∧ c.isAlpha = false

theorem length_stringUnits?_lt
    {text rest : List Char} {units : List StringUnit}
    (h : stringUnits? text = some (units, rest)) :
    rest.length < text.length := by
  fun_induction stringUnits? text generalizing units rest with
  | case1 tail =>
      cases h
      simp
  | case2 a b c d tail ih =>
      simp only [Option.bind_eq_bind, Option.bind_eq_some_iff] at h
      obtain ⟨code, _, ⟨inner, after⟩, htail, heq⟩ := h
      have hlt := ih htail
      cases heq
      simp only [List.length_cons]
      omega
  | case3 letter tail _ ih =>
      simp only [Option.bind_eq_bind, Option.bind_eq_some_iff] at h
      obtain ⟨denoted, _, ⟨inner, after⟩, htail, heq⟩ := h
      have hlt := ih htail
      cases heq
      simp only [List.length_cons]
      omega
  | case4 c tail _ _ _ hbad => cases h
  | case5 c tail _ _ _ hgood ih =>
      simp only [Option.bind_eq_bind, Option.bind_eq_some_iff] at h
      obtain ⟨⟨inner, after⟩, htail, heq⟩ := h
      have hlt := ih htail
      cases heq
      simp only [List.length_cons]
      omega
  | case6 => cases h

theorem token?_cons_of_mark
    {c : Char} {token : Token} (h : mark? c = some token) (rest : List Char) :
    token? (c :: rest) = some (token, rest) := by
  have hquote : c ≠ '"' := by
    rintro rfl
    cases h
  rw [token?.eq_3 _ _ hquote, h]

theorem token?_cons_of_digit
    {c : Char} (h : c.isDigit = true) (rest : List Char) :
    token? (c :: rest) =
      (decimal? ((c :: rest).takeWhile Char.isDigit)).map fun n =>
        (.number n, (c :: rest).dropWhile Char.isDigit) := by
  have hquote : c ≠ '"' := by
    rintro rfl
    cases h
  have hmark : mark? c = none := by
    rw [mark?.eq_7]
    all_goals
      rintro rfl
      cases h
  rw [token?.eq_3 _ _ hquote, hmark, if_pos h]

theorem token?_cons_of_other
    {c : Char} (hquote : c ≠ '"') (hmark : mark? c = none) (hdigit : c.isDigit = false)
    (rest : List Char) :
    token? (c :: rest) =
      (word? ((c :: rest).takeWhile Char.isAlpha)).map fun token =>
        (token, (c :: rest).dropWhile Char.isAlpha) := by
  rw [token?.eq_3 _ _ hquote, hmark, if_neg (by simp [hdigit])]

/-- A token takes at least one character. -/
theorem length_token?_lt
    {text rest : List Char} {token : Token} (h : token? text = some (token, rest)) :
    rest.length < text.length := by
  rcases text with _ | ⟨c, tail⟩
  · cases h
  have hle (p : Char → Bool) : (tail.dropWhile p).length ≤ tail.length :=
    (List.dropWhile_sublist p).length_le
  by_cases hquote : c = '"'
  · subst hquote
    simp only [token?, stringToken?, Option.bind_eq_bind, Option.bind_eq_some_iff] at h
    obtain ⟨⟨units, after⟩, hunits, characters, _, heq⟩ := h
    have hlt := length_stringUnits?_lt hunits
    cases heq
    exact hlt.trans (Nat.lt_succ_self _)
  rcases hmark : mark? c with _ | mark
  · by_cases hdigit : c.isDigit = true
    · rw [token?_cons_of_digit hdigit, Option.map_eq_some_iff] at h
      obtain ⟨n, _, heq⟩ := h
      cases heq
      rw [List.dropWhile_cons_of_pos hdigit]
      exact Nat.lt_succ_of_le (hle _)
    · rw [token?_cons_of_other hquote hmark (by simpa using hdigit),
        Option.map_eq_some_iff] at h
      obtain ⟨word, hword, heq⟩ := h
      cases heq
      -- A word without a character is no word, so the first character belongs to it.
      have halpha : c.isAlpha = true := by
        by_contra hnot
        rw [List.takeWhile_cons_of_neg hnot] at hword
        cases hword
      rw [List.dropWhile_cons_of_pos halpha]
      exact Nat.lt_succ_of_le (hle _)
  · rw [token?_cons_of_mark hmark] at h
    cases h
    exact Nat.lt_succ_self _

theorem Spells.length_le
    {text : List Char} {tokens : List Token} (h : Spells text tokens) :
    tokens.length ≤ text.length := by
  induction h with
  | space _ => exact Nat.zero_le _
  | @token text rest token tokens htoken _ ih =>
      have hlt := length_token?_lt htoken
      have hle := (List.dropWhile_sublist isSpace (l := text)).length_le
      rw [List.length_cons]
      omega

theorem Spells.tokensWithin?_eq
    {text : List Char} {tokens : List Token} (h : Spells text tokens) :
    ∀ {steps : Nat}, tokens.length ≤ steps → tokensWithin? steps text = some tokens := by
  induction h with
  | space hspace =>
      intro steps _
      exact tokensWithin?.eq_1 _ _ hspace
  | @token text rest token tokens htoken _ ih =>
      intro steps hsteps
      obtain ⟨steps, rfl⟩ : ∃ fewer, steps = fewer + 1 :=
        ⟨steps - 1, by simp only [List.length_cons] at hsteps; omega⟩
      have hrest : tokensWithin? steps rest = some tokens := ih (by simpa using hsteps)
      have hsome : text.dropWhile isSpace ≠ [] := by
        intro hnone
        rw [hnone] at htoken
        cases htoken
      rw [tokensWithin?.eq_3 _ _ hsome, htoken]
      change Option.bind (tokensWithin? steps rest) _ = _
      rw [hrest]
      rfl

/-- The reader of tokens finds the tokens that a text spells. -/
theorem Spells.tokens?_eq
    {text : List Char} {tokens : List Token} (h : Spells text tokens) :
    tokens? text = some tokens :=
  h.tokensWithin?_eq h.length_le

/-! ## Layout and marks -/

theorem Spells.of_dropWhile_eq
    {text other : List Char} {tokens : List Token}
    (hspace : text.dropWhile isSpace = other.dropWhile isSpace) (h : Spells other tokens) :
    Spells text tokens := by
  cases h with
  | space hnone => exact .space (hspace.trans hnone)
  | token htoken hrest => exact .token (hspace ▸ htoken) hrest

theorem Spells.newline
    {rest : List Char} {tokens : List Token} (h : Spells rest tokens) (level : Nat) :
    Spells (newline level ++ rest) tokens := by
  apply h.of_dropWhile_eq
  apply List.dropWhile_append_of_pos
  intro c hc
  rw [Json.newline, List.mem_cons, List.mem_replicate] at hc
  rcases hc with rfl | ⟨_, rfl⟩
  · rfl
  · rfl

theorem Spells.of_token?
    {c : Char} {text rest : List Char} {token : Token} {tokens : List Token}
    (hc : isSpace c = false) (htoken : token? (c :: text) = some (token, rest))
    (h : Spells rest tokens) :
    Spells (c :: text) (token :: tokens) := by
  apply Spells.token _ h
  rw [List.dropWhile_cons_of_neg (by simp [hc])]
  exact htoken

theorem eq_of_isSpace
    {c : Char} (h : isSpace c = true) :
    c = ' ' ∨ c = '\n' ∨ c = '\t' ∨ c = '\r' := by
  simpa only [isSpace, Bool.or_eq_true, decide_eq_true_eq, or_assoc] using h

theorem Spells.mark
    {c : Char} {token : Token} (hmark : mark? c = some token)
    {rest : List Char} {tokens : List Token} (h : Spells rest tokens) :
    Spells (c :: rest) (token :: tokens) := by
  apply h.of_token? _ (token?_cons_of_mark hmark rest)
  by_contra hspace
  rcases eq_of_isSpace (eq_true_of_ne_false hspace) with rfl | rfl | rfl | rfl
  all_goals cases hmark

theorem ends_cons
    {c : Char} (hdigit : c.isDigit = false) (halpha : c.isAlpha = false) (rest : List Char) :
    Ends (c :: rest) := by
  intro first hfirst
  obtain rfl : c = first := by simpa using hfirst
  exact ⟨hdigit, halpha⟩

theorem ends_newline
    (level : Nat) (rest : List Char) :
    Ends (newline level ++ rest) :=
  ends_cons rfl rfl _

/-! ## Strings -/

/-- The unit that a character of a written string is read as. -/
def writtenUnit (c : Char) : StringUnit :=
  if c.toNat < 0x20 ∧ c ≠ '\x08' ∧ c ≠ '\t' ∧ c ≠ '\n' ∧ c ≠ '\x0c' ∧ c ≠ '\r' then
    .code c.toNat
  else .char c

theorem hexNumber?_controlCode
    {code : Nat} (h : code < 0x20) :
    Text.hexNumber? ['0', '0', Text.hexDigit (code / 16), Text.hexDigit (code % 16)] =
      some code := by
  have hall : ∀ n : Fin 0x20,
      Text.hexNumber? ['0', '0', Text.hexDigit (n.val / 16), Text.hexDigit (n.val % 16)] =
        some n.val := by
    decide
  exact hall ⟨code, h⟩

theorem stringUnits?_escapeChar
    (c : Char) {text rest : List Char} {units : List StringUnit}
    (h : stringUnits? text = some (units, rest)) :
    stringUnits? (escapeChar c ++ text) = some (writtenUnit c :: units, rest) := by
  by_cases hletter :
      c = '"' ∨ c = '\\' ∨ c = '\x08' ∨ c = '\t' ∨ c = '\n' ∨ c = '\x0c' ∨ c = '\r'
  · rcases hletter with rfl | rfl | rfl | rfl | rfl | rfl | rfl
    all_goals
      simp [escapeChar, stringUnits?, letterEscape?, h, writtenUnit]
  · simp only [not_or] at hletter
    obtain ⟨hquote, hslash, hback, htab, hline, hfeed, hreturn⟩ := hletter
    by_cases hcontrol : c.toNat < 0x20
    · have hunit : writtenUnit c = .code c.toNat := by
        rw [writtenUnit, if_pos ⟨hcontrol, hback, htab, hline, hfeed, hreturn⟩]
      have hescape : escapeChar c =
          ['\\', 'u', '0', '0', Text.hexDigit (c.toNat / 16),
            Text.hexDigit (c.toNat % 16)] := by
        simp [escapeChar, hquote, hslash, hback, htab, hline, hfeed, hreturn, hcontrol]
      rw [hescape, hunit]
      simp [stringUnits?, hexNumber?_controlCode hcontrol, h]
    · have hunit : writtenUnit c = .char c := by
        rw [writtenUnit, if_neg (fun hall => hcontrol hall.1)]
      have hescape : escapeChar c = [c] := by
        simp [escapeChar, hquote, hslash, hback, htab, hline, hfeed, hreturn, hcontrol]
      rw [hescape, hunit, List.singleton_append, stringUnits?]
      · rw [if_neg (by simp [hslash, hcontrol]), h]
        rfl
      · exact hquote
      · intro _ _ _ _ _ hbackslash
        exact absurd hbackslash hslash
      · intro _ _ hbackslash
        exact absurd hbackslash hslash

theorem stringUnits?_written
    (characters rest : List Char) :
    stringUnits? (characters.flatMap escapeChar ++ '"' :: rest) =
      some (characters.map writtenUnit, rest) := by
  induction characters with
  | nil => rfl
  | cons c characters ih =>
      rw [List.flatMap_cons, List.append_assoc, List.map_cons]
      exact stringUnits?_escapeChar c ih

theorem unitsText?_writtenUnit
    (c : Char) {units : List StringUnit} {characters : List Char}
    (h : unitsText? units = some characters) :
    unitsText? (writtenUnit c :: units) = some (c :: characters) := by
  rw [writtenUnit]
  split
  · have hvalid : c.toNat.isValidChar := c.valid
    have hcode : Text.charOfCode? c.toNat = some c := by
      rw [Text.charOfCode?, if_pos hvalid, Char.ofNat_toNat]
    rw [unitsText?.eq_def]
    simp only [hcode, h, Option.map_some]
  · rw [unitsText?, h, Option.map_some]

theorem unitsText?_written
    (characters : List Char) :
    unitsText? (characters.map writtenUnit) = some characters := by
  induction characters with
  | nil => rfl
  | cons c characters ih => exact unitsText?_writtenUnit c ih

theorem token?_renderString
    (text : String) (rest : List Char) :
    token? (renderString text ++ rest) = some (.string text, rest) := by
  have hshape : renderString text ++ rest =
      '"' :: (text.toList.flatMap escapeChar ++ '"' :: rest) := by
    simp [renderString]
  rw [hshape, token?, stringToken?, stringUnits?_written]
  change Option.bind (unitsText? _) _ = _
  rw [unitsText?_written]
  change some (Token.string (String.ofList text.toList), rest) = _
  rw [String.ofList_toList]

theorem Spells.string
    (text : String) {rest : List Char} {tokens : List Token} (h : Spells rest tokens) :
    Spells (renderString text ++ rest) (.string text :: tokens) :=
  h.of_token? rfl (token?_renderString text rest)

/-! ## Numbers and words -/

theorem takeWhile_append_of_ends
    {p : Char → Bool} {part rest : List Char}
    (hpart : ∀ c ∈ part, p c = true) (hrest : ∀ c, rest.head? = some c → p c = false) :
    (part ++ rest).takeWhile p = part ∧ (part ++ rest).dropWhile p = rest := by
  rw [List.takeWhile_append_of_pos hpart, List.dropWhile_append_of_pos hpart]
  rcases rest with _ | ⟨c, rest⟩
  · simp
  · have hc : p c = false := hrest c rfl
    simp [hc]

theorem head?_toDigits_ne
    {n : Nat} (h : 0 < n) :
    (Nat.toDigits 10 n).head? ≠ some '0' := by
  induction n using Nat.strongRecOn with
  | ind n ih =>
      rw [Nat.toDigits_eq_if (by decide)]
      split
      · simp only [List.head?_cons, ne_eq, Option.some.injEq, Nat.digitChar_eq_zero]
        omega
      · next hlarge =>
          have hquotient : 0 < n / 10 := by omega
          have hnonempty : Nat.toDigits 10 (n / 10) ≠ [] := by
            have := Nat.length_toDigits_pos (b := 10) (n := n / 10)
            exact List.ne_nil_of_length_pos this
          rw [List.head?_append, Option.or_of_isSome (List.isSome_head?.mpr hnonempty)]
          exact ih (n / 10) (by omega) hquotient

theorem decimal?_toDigits
    (n : Nat) :
    decimal? (Nat.toDigits 10 n) = some n := by
  have hvalue :
      (Nat.toDigits 10 n).foldl (fun n c => n * 10 + (c.toNat - '0'.toNat)) 0 = n := by
    have hread := Nat.ofDigitChars_toDigits (b := 10) (n := n) (by decide) (by decide)
    rw [Nat.ofDigitChars_eq_foldl] at hread
    simpa only [Nat.mul_comm 10] using hread
  have hplain : ∀ c d rest, Nat.toDigits 10 n = c :: d :: rest → c ≠ '0' := by
    intro c d rest hdigits hzero
    rcases Nat.eq_zero_or_pos n with rfl | hpos
    · simp at hdigits
    · exact head?_toDigits_ne hpos (by rw [hdigits, hzero, List.head?_cons])
  rw [decimal?, hvalue]
  · exact List.ne_nil_of_length_pos Nat.length_toDigits_pos
  · intro d rest hdigits
    exact hplain '0' d rest hdigits rfl

theorem Spells.number
    (n : Nat) {rest : List Char} {tokens : List Token} (hends : Ends rest)
    (h : Spells rest tokens) :
    Spells (Nat.toDigits 10 n ++ rest) (.number n :: tokens) := by
  have hdigits : ∀ c ∈ Nat.toDigits 10 n, c.isDigit = true := by
    intro c hc
    exact Nat.isDigit_of_mem_toDigits (by decide) (by decide) hc
  obtain ⟨htake, hdrop⟩ :=
    takeWhile_append_of_ends hdigits fun c hc => (hends c hc).1
  rcases hshape : Nat.toDigits 10 n with _ | ⟨c, digits⟩
  · exact absurd hshape (List.ne_nil_of_length_pos Nat.length_toDigits_pos)
  have hdigit : c.isDigit = true := hdigits c (by simp [hshape])
  have hspace : isSpace c = false := by
    by_contra hspace
    rcases eq_of_isSpace (eq_true_of_ne_false hspace) with rfl | rfl | rfl | rfl
    all_goals cases hdigit
  have htoken : token? (c :: (digits ++ rest)) = some (.number n, rest) := by
    rw [hshape, List.cons_append] at htake hdrop
    rw [token?_cons_of_digit hdigit, htake, hdrop, ← hshape, decimal?_toDigits]
    rfl
  exact h.of_token? hspace htoken

theorem Spells.word
    {letters : List Char} {token : Token} (hword : word? letters = some token)
    {rest : List Char} {tokens : List Token} (hends : Ends rest) (h : Spells rest tokens) :
    Spells (letters ++ rest) (token :: tokens) := by
  have hletters :
      letters = "null".toList ∨ letters = "true".toList ∨ letters = "false".toList := by
    by_contra hnone
    simp only [not_or] at hnone
    rw [word?, if_neg hnone.1, if_neg hnone.2.1, if_neg hnone.2.2] at hword
    cases hword
  have halpha : ∀ c ∈ letters, c.isAlpha = true := by
    rcases hletters with rfl | rfl | rfl
    all_goals exact List.all_eq_true.mp (by decide)
  obtain ⟨htake, hdrop⟩ := takeWhile_append_of_ends halpha fun c hc => (hends c hc).2
  have hread : (word? ((letters ++ rest).takeWhile Char.isAlpha)).map (fun token =>
      (token, (letters ++ rest).dropWhile Char.isAlpha)) = some (token, rest) := by
    rw [htake, hdrop, hword]
    rfl
  rcases hletters with rfl | rfl | rfl
  all_goals
    refine h.of_token? rfl ?_
    exact (token?_cons_of_other (by decide) rfl rfl _).trans hread

/-! ## Values -/

mutual

/-- The tokens that a value is written with. -/
def tokens : Json → List Token
  | .null => [.null]
  | .bool value => [.bool value]
  | .number value => [.number value]
  | .string value => [.string value]
  | .array [] => [.leftBracket, .rightBracket]
  | .array (item :: items) =>
      .leftBracket :: (item.tokens ++ (laterItems items ++ [.rightBracket]))
  | .object [] => [.leftBrace, .rightBrace]
  | .object ((name, value) :: members) =>
      .leftBrace :: .string name :: .colon ::
        (value.tokens ++ (laterMembers members ++ [.rightBrace]))

/-- The tokens of the items after the first one. -/
def laterItems : List Json → List Token
  | [] => []
  | item :: items => .comma :: (item.tokens ++ laterItems items)

/-- The tokens of the members after the first one. -/
def laterMembers : List (String × Json) → List Token
  | [] => []
  | (name, value) :: members =>
      .comma :: .string name :: .colon :: (value.tokens ++ laterMembers members)

end

theorem ends_renderItems
    (items : List Json) (level : Nat) {rest : List Char} (hends : Ends rest) :
    Ends (renderItems level items ++ rest) := by
  rcases items with _ | ⟨item, items⟩
  · exact hends
  · exact ends_cons rfl rfl _

theorem ends_renderMembers
    (members : List (String × Json)) (level : Nat) {rest : List Char} (hends : Ends rest) :
    Ends (renderMembers level members ++ rest) := by
  rcases members with _ | ⟨⟨name, value⟩, members⟩
  · exact hends
  · exact ends_cons rfl rfl _

theorem Spells.member
    (name : String) {text : List Char} {tokens : List Token} (h : Spells text tokens) :
    Spells (renderString name ++ ':' :: ' ' :: text) (.string name :: .colon :: tokens) := by
  have hspace : Spells (' ' :: text) tokens :=
    h.of_dropWhile_eq (List.dropWhile_cons_of_pos rfl)
  exact (hspace.mark (c := ':') rfl).string name

mutual

/-- A written value spells its tokens, ahead of any text that does not continue it. -/
theorem spells_renderAt
    (value : Json) (level : Nat) {rest : List Char} {later : List Token}
    (hends : Ends rest) (h : Spells rest later) :
    Spells (renderAt level value ++ rest) (value.tokens ++ later) := by
  match value with
  | .null => exact h.word rfl hends
  | .bool true => exact h.word rfl hends
  | .bool false => exact h.word rfl hends
  | .number n => exact h.number n hends
  | .string text => exact h.string text
  | .array [] => exact (h.mark (c := ']') rfl).mark (c := '[') rfl
  | .array (item :: items) =>
      have hclose := (h.mark (c := ']') rfl).newline level
      have hnewline := ends_newline level (']' :: rest)
      have hitems := spells_renderItems items (level + 1) hnewline hclose
      have hitem := spells_renderAt item (level + 1) (ends_renderItems items _ hnewline) hitems
      have hopen := (hitem.newline (level + 1)).mark (c := '[') rfl
      simpa [renderAt, tokens] using hopen
  | .object [] => exact (h.mark (c := '\x7d') rfl).mark (c := '\x7b') rfl
  | .object ((name, value) :: members) =>
      have hclose := (h.mark (c := '\x7d') rfl).newline level
      have hnewline := ends_newline level ('\x7d' :: rest)
      have hmembers := spells_renderMembers members (level + 1) hnewline hclose
      have hvalue :=
        spells_renderAt value (level + 1) (ends_renderMembers members _ hnewline) hmembers
      have hopen := ((hvalue.member name).newline (level + 1)).mark (c := '\x7b') rfl
      simpa [renderAt, tokens] using hopen

/-- The items after the first one spell their tokens. -/
theorem spells_renderItems
    (items : List Json) (level : Nat) {rest : List Char} {later : List Token}
    (hends : Ends rest) (h : Spells rest later) :
    Spells (renderItems level items ++ rest) (laterItems items ++ later) := by
  match items with
  | [] => exact h
  | item :: items =>
      have hitems := spells_renderItems items level hends h
      have hitem := spells_renderAt item level (ends_renderItems items level hends) hitems
      have hcomma := (hitem.newline level).mark (c := ',') rfl
      simpa [renderItems, laterItems] using hcomma

/-- The members after the first one spell their tokens. -/
theorem spells_renderMembers
    (members : List (String × Json)) (level : Nat) {rest : List Char} {later : List Token}
    (hends : Ends rest) (h : Spells rest later) :
    Spells (renderMembers level members ++ rest) (laterMembers members ++ later) := by
  match members with
  | [] => exact h
  | (name, value) :: members =>
      have hmembers := spells_renderMembers members level hends h
      have hvalue := spells_renderAt value level (ends_renderMembers members level hends) hmembers
      have hcomma := ((hvalue.member name).newline level).mark (c := ',') rfl
      simpa [renderMembers, laterMembers] using hcomma

end

end HandlerLint.Json
