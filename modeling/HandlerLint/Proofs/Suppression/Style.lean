import HandlerLint.Proofs.Suppression.Comment

/-!
# Comment styles

A directive can be written in three styles of comment.  The styles that run to the end of
the line read the same rule and the same reason from the same payload, and they ignore
what follows the rule unless it starts with a hyphen.

A block comment has to close.  Where the payload is a rule with nothing after it, or with a
hyphen and a reason, a block comment reads what the other styles read.  Where the rule is
followed by anything else, the rule is cut at its last inner hyphen, and what was the rest
of the rule becomes part of the reason; and if there is no such hyphen, there is no
directive at all.
-/

namespace HandlerLint.Suppression

open HandlerLint.Text

/-- After the rule of a payload there is nothing, or a hyphen. -/
def Separated (payload : List Char) : Prop :=
  dropBlank (payload.dropWhile isSolid) = [] ∨
    (dropBlank (payload.dropWhile isSolid)).head? = some '-'

instance (payload : List Char) : Decidable (Separated payload) :=
  inferInstanceAs (Decidable (_ ∨ _))

/-! ## Reading the payload of a block comment -/

theorem trim_append_blank
    (text : List Char) :
    trim (text ++ [' ']) = trim text := by
  have htrailing :
      ∀ text, dropTrailingBlank (text ++ [' ']) = dropTrailingBlank text := by
    intro text
    unfold dropTrailingBlank
    rw [List.reverse_append, List.reverse_singleton, List.singleton_append,
      List.dropWhile_cons_of_pos rfl]
  unfold trim
  rw [dropBlank_append]
  split
  · next hblank =>
      rw [hblank]
      rfl
  · exact htrailing _

theorem beforeCloser?_cons
    {c : Char} {text : List Char} (h : ∀ rest, c :: text ≠ '*' :: '/' :: rest) :
    beforeCloser? (c :: text) = (beforeCloser? text).map (c :: ·) := by
  rw [beforeCloser?]
  intro rest hc htext
  exact h rest (by rw [hc, htext])

theorem beforeCloser?_eq_some_iff
    {full text : List Char} :
    beforeCloser? full = some text ↔
      ¬ ['*', '/'] <:+: text ∧ ∃ rest, full = text ++ '*' :: '/' :: rest := by
  induction full generalizing text with
  | nil => simp [beforeCloser?]
  | cons c full ih =>
      by_cases hcloser : ∃ rest, c :: full = '*' :: '/' :: rest
      · obtain ⟨rest, hfull⟩ := hcloser
        rw [hfull]
        constructor
        · intro h
          cases h
          exact ⟨by decide, rest, rfl⟩
        · rintro ⟨hclear, after, hafter⟩
          rcases text with _ | ⟨d, _ | ⟨e, text⟩⟩
          · rfl
          · simp at hafter
          · simp only [List.cons_append, List.cons.injEq] at hafter
            obtain ⟨rfl, rfl, _⟩ := hafter
            exact absurd ⟨[], text, rfl⟩ hclear
      · have hother : ∀ rest, c :: full ≠ '*' :: '/' :: rest := not_exists.mp hcloser
        rw [beforeCloser?_cons hother, Option.map_eq_some_iff]
        constructor
        · rintro ⟨text, htext, rfl⟩
          obtain ⟨hclear, rest, rfl⟩ := ih.mp htext
          refine ⟨fun hinside => ?_, rest, rfl⟩
          rcases List.infix_cons_iff.mp hinside with ⟨after, hhere⟩ | hlater
          · refine hother (after ++ '*' :: '/' :: rest) ?_
            rw [← List.cons_append, ← hhere]
            rfl
          · exact hclear hlater
        · rintro ⟨hclear, rest, hfull⟩
          cases text with
          | nil => exact absurd hfull (hother rest)
          | cons d text =>
              obtain ⟨rfl, rfl⟩ := List.cons.inj hfull
              have hlater : ¬ ['*', '/'] <:+: text := fun hinside =>
                hclear (List.infix_cons_iff.mpr (Or.inr hinside))
              exact ⟨text, ih.mpr ⟨hlater, rest, rfl⟩, rfl⟩

theorem beforeCloser?_append
    {text : List Char} (h : ¬ ['*', '/'] <:+: text) :
    beforeCloser? (text ++ [' ', '*', '/']) = some (text ++ [' ']) := by
  have hclear : ¬ ['*', '/'] <:+: text ++ [' '] :=
    not_infix_append_cons (by decide) h (by decide)
  exact beforeCloser?_eq_some_iff.mpr ⟨hclear, [], by simp⟩

/-- The reason in the text after a rule, if nothing or a hyphen follows the rule. -/
def followingReason? (text : List Char) : Option (List Char) :=
  match dropBlank text with
  | [] => some []
  | '-' :: rest => some (trim rest)
  | _ => none

theorem followingReason?_cons
    {c : Char} {rest : List Char} (hc : isBlank c = false) :
    followingReason? (c :: rest) = if c = '-' then some (trim rest) else none := by
  have hdrop : dropBlank (c :: rest) = c :: rest := List.dropWhile_cons_of_neg (by simp [hc])
  unfold followingReason?
  rw [hdrop]
  by_cases hhyphen : c = '-'
  · rw [if_pos hhyphen, hhyphen]
    rfl
  · rw [if_neg hhyphen]
    split
    · next heq => cases heq
    · next rest heq => exact absurd (List.cons.inj heq).1 hhyphen
    · rfl

theorem separated_iff
    {payload : List Char} :
    Separated payload ↔ (followingReason? (payload.dropWhile isSolid)).isSome = true := by
  unfold Separated followingReason?
  split
  · next heq => simp [heq]
  · next rest heq => simp [heq]
  · next hnil hhyphen =>
      rw [List.head?_eq_some_iff]
      refine iff_of_false ?_ (by simp)
      rintro (hempty | ⟨rest, hrest⟩)
      · exact hnil hempty
      · exact hhyphen rest hrest

/-- Where a block comment closes right after a text, its reason is the following one. -/
theorem closedReason?_append
    {text : List Char} (h : ¬ ['*', '/'] <:+: text) :
    closedReason? (text ++ [' ', '*', '/']) = followingReason? text := by
  unfold closedReason? followingReason?
  rw [dropBlank_append]
  cases hdrop : dropBlank text with
  | nil => rfl
  | cons c rest =>
      have hsuffix : c :: rest <:+ text := hdrop ▸ List.dropWhile_suffix _
      have hclear : ¬ ['*', '/'] <:+: c :: rest := fun hinside =>
        h (hinside.trans hsuffix.isInfix)
      rw [if_neg (by simp), List.cons_append]
      by_cases hhyphen : c = '-'
      · subst hhyphen
        have hrest := beforeCloser?_append fun hinside =>
          hclear (List.infix_cons_iff.mpr (Or.inr hinside))
        simp only [hrest, Option.map_some, trim_append_blank]
      · split
        · next heq => exact absurd (List.cons.inj heq).1 hhyphen
        · next heq =>
            obtain ⟨rfl, hnext⟩ := List.cons.inj heq
            cases rest with
            | nil => cases hnext
            | cons d rest =>
                cases hnext
                exact absurd ⟨[], rest, rfl⟩ hclear
        · split
          · next heq => cases heq
          · next heq => exact absurd (List.cons.inj heq).1 hhyphen
          · rfl

theorem linePayload_eq
    (payload : List Char) :
    linePayload payload =
      (payload.takeWhile isSolid,
        (followingReason? (payload.dropWhile isSolid)).getD []) := by
  unfold linePayload followingReason?
  split
  · next rest heq => simp [heq]
  · next hhyphen =>
      split
      · rfl
      · next rest heq => exact absurd heq (hhyphen rest)
      · rfl

theorem findSome?_reverse_range
    {β : Type} {f : Nat → Option β} {index count : Nat} {value : β} (hindex : index < count)
    (hvalue : f index = some value) (hlater : ∀ k, index < k → k < count → f k = none) :
    (List.range count).reverse.findSome? f = some value := by
  induction count with
  | zero => exact absurd hindex (Nat.not_lt_zero index)
  | succ count ih =>
      rw [List.range_succ, List.reverse_append, List.reverse_singleton, List.singleton_append,
        List.findSome?_cons]
      rcases Nat.lt_succ_iff_lt_or_eq.mp hindex with hlt | rfl
      · rw [hlater count hlt (Nat.lt_succ_self count)]
        exact ih hlt fun k hk hcount => hlater k hk (Nat.lt_succ_of_lt hcount)
      · rw [hvalue]

theorem takeWhile_isSolid_closed
    (payload : List Char) :
    (payload ++ [' ', '*', '/']).takeWhile isSolid = payload.takeWhile isSolid := by
  rw [List.takeWhile_append]
  split
  · next hall =>
      have hrule : payload.takeWhile isSolid = payload :=
        (List.takeWhile_prefix _).eq_of_length hall
      rw [hrule]
      exact List.append_nil _
  · rfl

/-- What follows a part of the rule is no reason, unless it starts with a hyphen. -/
theorem followingReason?_drop_eq_none
    {payload : List Char} {length : Nat} (h : ¬ Separated payload)
    (hlength : length ≤ (payload.takeWhile isSolid).length)
    (hhyphen : '-' ∉ (payload.takeWhile isSolid).drop length) :
    followingReason? (payload.drop length) = none := by
  have hpayload :
      payload.drop length =
        (payload.takeWhile isSolid).drop length ++ payload.dropWhile isSolid := by
    rw [← List.drop_append_of_le_length hlength, List.takeWhile_append_dropWhile]
  rw [hpayload]
  cases hrest : (payload.takeWhile isSolid).drop length with
  | nil =>
      rw [List.nil_append, ← Option.not_isSome_iff_eq_none]
      exact mt separated_iff.mpr h
  | cons c rest =>
      rw [hrest] at hhyphen
      have hmem : c ∈ payload.takeWhile isSolid := by
        apply List.mem_of_mem_drop
        rw [hrest]
        exact List.mem_cons_self
      have hc : isBlank c = false := by
        have hall := List.all_eq_true.mp (@List.all_takeWhile _ isSolid payload) c hmem
        simpa [isSolid] using hall
      have hother : c ≠ '-' := by
        rintro rfl
        exact hhyphen List.mem_cons_self
      rw [List.cons_append, followingReason?_cons hc, if_neg hother]

/-- A hyphen inside a rule, but not in front of it, has a last place. -/
theorem exists_last_inner_hyphen
    {rule : List Char} (h : '-' ∈ rule.tail) :
    ∃ before after, rule = before ++ '-' :: after ∧ before ≠ [] ∧ '-' ∉ after := by
  cases rule with
  | nil => cases h
  | cons first rule =>
      obtain ⟨after, before, hsplit, hlast⟩ :=
        List.eq_append_cons_of_mem (List.mem_reverse.mpr h)
      refine ⟨first :: before.reverse, after.reverse, ?_, by simp, by simpa using hlast⟩
      have hreverse := congrArg List.reverse hsplit
      simpa using hreverse

section Block

variable {payload : List Char} (h : PlainPayload payload)
include h

theorem PlainPayload.rule_ne_nil :
    payload.takeWhile isSolid ≠ [] := by
  obtain ⟨c, rest, rfl, hc⟩ := h.eq_cons
  simp [isSolid, hc]

/-- A rule of some length in a block comment, with the reason after it. -/
theorem PlainPayload.closed_at
    {shorter : Nat} (hshorter : shorter < (payload.takeWhile isSolid).length) :
    ((closedReason? ((payload ++ [' ', '*', '/']).drop (shorter + 1))).map fun reason =>
        ((payload ++ [' ', '*', '/']).take (shorter + 1), reason)) =
      (followingReason? (payload.drop (shorter + 1))).map fun reason =>
        (payload.take (shorter + 1), reason) := by
  have hle : shorter + 1 ≤ payload.length :=
    Nat.le_trans hshorter (List.takeWhile_prefix _).length_le
  have hclear : ¬ ['*', '/'] <:+: payload.drop (shorter + 1) := fun hinside =>
    h.no_closer (hinside.trans (List.drop_suffix _ _).isInfix)
  rw [List.drop_append_of_le_length hle, List.take_append_of_le_length hle,
    closedReason?_append hclear]

/-- A block comment is read with the longest rule after which a reason can follow. -/
theorem PlainPayload.blockPayload?_eq_some
    {rule after reason : List Char} (hpayload : payload = rule ++ after)
    (hne : rule ≠ []) (hrule : rule.length ≤ (payload.takeWhile isSolid).length)
    (hreason : followingReason? after = some reason)
    (hlonger : ∀ length, rule.length < length →
      length ≤ (payload.takeWhile isSolid).length →
        followingReason? (payload.drop length) = none) :
    blockPayload? (payload ++ [' ', '*', '/']) = some (rule, reason) := by
  have hpos : 0 < rule.length := List.length_pos_of_ne_nil hne
  have hindex : rule.length - 1 < (payload.takeWhile isSolid).length := by omega
  unfold blockPayload?
  rw [takeWhile_isSolid_closed]
  -- Rules are tried from the longest one down, so this one is met after the longer ones.
  apply findSome?_reverse_range hindex
  · have hlength : rule.length - 1 + 1 = rule.length := Nat.sub_add_cancel hpos
    rw [h.closed_at hindex, hlength]
    subst hpayload
    rw [List.drop_left, List.take_left, hreason]
    rfl
  · intro shorter hshorter hcount
    rw [h.closed_at hcount, hlonger (shorter + 1) (by omega) hcount]
    rfl

theorem PlainPayload.blockPayload?_of_separated
    (hseparated : Separated payload) :
    blockPayload? (payload ++ [' ', '*', '/']) = some (linePayload payload) := by
  obtain ⟨reason, hreason⟩ := Option.isSome_iff_exists.mp (separated_iff.mp hseparated)
  rw [linePayload_eq, hreason]
  refine h.blockPayload?_eq_some List.takeWhile_append_dropWhile.symm h.rule_ne_nil
    (Nat.le_refl _) hreason ?_
  intro length hlonger hlength
  exact absurd hlength (Nat.not_le_of_lt hlonger)

/-- The rule is cut at its last inner hyphen. -/
theorem PlainPayload.blockPayload?_of_hyphen
    (hseparated : ¬ Separated payload) {before after : List Char}
    (hrule : payload.takeWhile isSolid = before ++ '-' :: after) (hbefore : before ≠ [])
    (hafter : '-' ∉ after) :
    blockPayload? (payload ++ [' ', '*', '/']) =
      some (before, trim (after ++ payload.dropWhile isSolid)) := by
  have hpayload : payload = before ++ '-' :: (after ++ payload.dropWhile isSolid) := by
    conv_lhs => rw [← @List.takeWhile_append_dropWhile _ isSolid payload, hrule]
    simp
  have hlength : before.length ≤ (payload.takeWhile isSolid).length := by
    rw [hrule, List.length_append]
    exact Nat.le_add_right _ _
  have hreason :
      followingReason? ('-' :: (after ++ payload.dropWhile isSolid)) =
        some (trim (after ++ payload.dropWhile isSolid)) :=
    followingReason?_cons rfl
  refine h.blockPayload?_eq_some hpayload hbefore hlength hreason ?_
  intro length hlonger hshort
  apply followingReason?_drop_eq_none hseparated hshort
  intro hmem
  have hparts : before ++ '-' :: after = (before ++ ['-']) ++ after := by simp
  rw [hrule, hparts, List.drop_append,
    List.drop_of_length_le (by rw [List.length_append]; exact hlonger), List.nil_append] at hmem
  exact hafter (List.mem_of_mem_drop hmem)

/-- A rule without an inner hyphen cannot be cut. -/
theorem PlainPayload.blockPayload?_eq_none
    (hseparated : ¬ Separated payload)
    (hhyphen : '-' ∉ (payload.takeWhile isSolid).tail) :
    blockPayload? (payload ++ [' ', '*', '/']) = none := by
  unfold blockPayload?
  rw [takeWhile_isSolid_closed, List.findSome?_eq_none_iff]
  intro shorter hmem
  have hshorter : shorter < (payload.takeWhile isSolid).length :=
    List.mem_range.mp (List.mem_reverse.mp hmem)
  rw [h.closed_at hshorter, followingReason?_drop_eq_none hseparated hshorter]
  · rfl
  · intro hmem
    rw [← List.drop_tail] at hmem
    exact hhyphen (List.mem_of_mem_drop hmem)

theorem PlainPayload.parse_block_of_separated
    (file : String) (keyword : Keyword) (hseparated : Separated payload) :
    parse file (Style.block.comment keyword payload) =
      [requested file keyword (linePayload payload)] := by
  have hpayload :
      Style.block.payload? (payload ++ Style.block.closer) = some (linePayload payload) :=
    h.blockPayload?_of_separated hseparated
  rw [h.parse_comment, hpayload]
  rfl

theorem PlainPayload.parse_block_of_hyphen
    (file : String) (keyword : Keyword) (hseparated : ¬ Separated payload)
    {before after : List Char}
    (hrule : payload.takeWhile isSolid = before ++ '-' :: after) (hbefore : before ≠ [])
    (hafter : '-' ∉ after) :
    parse file (Style.block.comment keyword payload) =
      [requested file keyword (before, trim (after ++ payload.dropWhile isSolid))] := by
  have hpayload :
      Style.block.payload? (payload ++ Style.block.closer) =
        some (before, trim (after ++ payload.dropWhile isSolid)) :=
    h.blockPayload?_of_hyphen hseparated hrule hbefore hafter
  rw [h.parse_comment, hpayload]
  rfl

theorem PlainPayload.parse_block_eq_nil
    (file : String) (keyword : Keyword) (hseparated : ¬ Separated payload)
    (hhyphen : '-' ∉ (payload.takeWhile isSolid).tail) :
    parse file (Style.block.comment keyword payload) = [] := by
  have hpayload : Style.block.payload? (payload ++ Style.block.closer) = none :=
    h.blockPayload?_eq_none hseparated hhyphen
  rw [h.parse_comment, hpayload]
  rfl

/-- A block comment with anything else after the rule is not read with that rule. -/
theorem PlainPayload.parse_block_ne
    (file : String) (keyword : Keyword) (hseparated : ¬ Separated payload) :
    parse file (Style.block.comment keyword payload) ≠
      [requested file keyword (linePayload payload)] := by
  -- Whatever is read instead has a shorter rule.
  intro hagree
  by_cases hinner : '-' ∈ (payload.takeWhile isSolid).tail
  · obtain ⟨before, after, hrule, hbefore, hafter⟩ := exists_last_inner_hyphen hinner
    rw [h.parse_block_of_hyphen file keyword hseparated hrule hbefore hafter] at hagree
    have hsame : String.ofList before = String.ofList (payload.takeWhile isSolid) :=
      congrArg Suppression.rule (List.singleton_inj.mp hagree)
    have hlength := congrArg List.length (String.ofList_injective hsame)
    rw [hrule, List.length_append, List.length_cons] at hlength
    omega
  · rw [h.parse_block_eq_nil file keyword hseparated hinner] at hagree
    cases hagree

end Block

/-- The comment styles that run to the end of the line read a plain payload alike.  A block
comment reads it as they do exactly if nothing or a hyphen follows the rule.  If not, it
cuts the rule at its last inner hyphen, and if the rule has none, it is no directive. -/
theorem comment_styles_agree_iff
    (file : String) (keyword : Keyword) {payload : List Char} (h : PlainPayload payload) :
    parse file (Style.slashes.comment keyword payload) =
        [requested file keyword (linePayload payload)] ∧
      parse file (Style.hash.comment keyword payload) =
        [requested file keyword (linePayload payload)] ∧
      (parse file (Style.block.comment keyword payload) =
          parse file (Style.slashes.comment keyword payload) ↔
        Separated payload) ∧
      (¬ Separated payload →
        (∀ before after, payload.takeWhile isSolid = before ++ '-' :: after →
            before ≠ [] → '-' ∉ after →
            parse file (Style.block.comment keyword payload) =
              [requested file keyword
                (before, trim (after ++ payload.dropWhile isSolid))]) ∧
          ('-' ∉ (payload.takeWhile isSolid).tail →
            parse file (Style.block.comment keyword payload) = [])) := by
  have hslashes := h.parse_comment_of_ne_block file .slashes keyword (by decide)
  have hhash := h.parse_comment_of_ne_block file .hash keyword (by decide)
  refine ⟨hslashes, hhash, ?_, ?_⟩
  · rw [hslashes]
    constructor
    · intro hagree
      by_contra hseparated
      exact h.parse_block_ne file keyword hseparated hagree
    · exact h.parse_block_of_separated file keyword
  · intro hseparated
    constructor
    · intro before after
      exact h.parse_block_of_hyphen file keyword hseparated
    · exact h.parse_block_eq_nil file keyword hseparated

/-- A block comment cuts the rule of one payload, and loses the directive of another. -/
theorem comment_styles_disagree :
    (PlainPayload "no-hide because x".toList ∧
        parse "a.cpp" (Style.slashes.comment .ignore "no-hide because x".toList) =
          [requested "a.cpp" .ignore ("no-hide".toList, [])] ∧
        parse "a.cpp" (Style.block.comment .ignore "no-hide because x".toList) =
          [requested "a.cpp" .ignore ("no".toList, "hide because x".toList)]) ∧
      PlainPayload "avoid_hiding_exceptions legacy code".toList ∧
        parse "a.cpp"
            (Style.block.comment .ignore "avoid_hiding_exceptions legacy code".toList) =
          [] := by
  have hcut : PlainPayload "no-hide because x".toList :=
    ⟨by decide, by decide, by decide +kernel, by decide⟩
  have hline : linePayload "no-hide because x".toList = ("no-hide".toList, []) := by
    decide +kernel
  have hreason :
      trim ("hide".toList ++ "no-hide because x".toList.dropWhile isSolid) =
        "hide because x".toList := by
    decide +kernel
  have hlost : PlainPayload "avoid_hiding_exceptions legacy code".toList :=
    ⟨by decide, by decide, by decide +kernel, by decide⟩
  obtain ⟨hslashes, _, _, hblock⟩ := comment_styles_agree_iff "a.cpp" .ignore hcut
  obtain ⟨_, _, _, hnone⟩ := comment_styles_agree_iff "a.cpp" .ignore hlost
  rw [hline] at hslashes
  have hrule := (hblock (by decide)).1 "no".toList "hide".toList (by decide) (by decide)
    (by decide)
  rw [hreason] at hrule
  exact ⟨⟨hcut, hslashes, hrule⟩, hlost, (hnone (by decide)).2 (by decide)⟩

end HandlerLint.Suppression
