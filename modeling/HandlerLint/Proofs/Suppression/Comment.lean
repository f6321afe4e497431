import Mathlib.Data.List.Infix
import HandlerLint.Proofs.Text.Lines
import HandlerLint.Suppression.Basic

/-!
# Directives alone on a line

A comment that is a directive can be written in any of the three styles.  No style mistakes
a comment of another style for its own: every directive starts with the signature, and the
signature stands in one place of the comment only.  So what a file with one such comment
asks for is what the style of the comment reads from its payload.
-/

namespace HandlerLint.Suppression

open HandlerLint.Text

/-! ## Comments -/

/-- How a comment of a style closes. -/
def Style.closer : Style → List Char
  | .slashes | .hash => []
  | .block => [' ', '*', '/']

/-- A comment of a style that holds a directive. -/
def Style.comment (style : Style) (keyword : Keyword) (payload : List Char) : List Char :=
  style.opener ++
    ' ' :: (signature ++ (keyword.text ++ ' ' :: (payload ++ style.closer)))

example :
    Style.block.comment .ignore "*".toList = "/* swallowcheck:ignore * */".toList := by
  decide +kernel

/-- A payload that stays inside its comment: it breaks no line, closes no comment, holds no
other directive, and begins in a character that is not blank. -/
structure PlainPayload (payload : List Char) : Prop where
  no_break : '\n' ∉ payload
  no_closer : ¬ ['*', '/'] <:+: payload
  no_signature : ¬ signature <:+: payload
  first : payload.head?.any isSolid = true

/-- The suppression that a directive alone on the first line asks for. -/
def requested (file : String) (keyword : Keyword) (entry : List Char × List Char) :
    Suppression :=
  { rule := String.ofList entry.1
    reason := String.ofList entry.2
    file
    line := if keyword = .ignoreFile then 0 else 1
    coverage := if keyword = .ignoreFile then .file else .nextLine }

/-! ## Where a directive can stand -/

theorem prefix_of_append_cons
    {pattern before after : List Char} {separator : Char}
    (h : pattern <+: before ++ separator :: after) (hfree : separator ∉ pattern) :
    pattern <+: before := by
  by_cases hlength : pattern.length ≤ before.length
  · exact List.prefix_of_prefix_length_le h (List.prefix_append _ _) hlength
  · have hlonger : before ++ [separator] <+: pattern := by
      refine List.prefix_of_prefix_length_le ⟨after, by simp⟩ h ?_
      rw [List.length_append, List.length_singleton]
      omega
    exact absurd (hlonger.subset (List.mem_append_right _ (List.mem_singleton_self _))) hfree

/-- What does not hold a separator stands on one side of it. -/
theorem infix_or_infix_of_append_cons
    {pattern before after : List Char} {separator : Char}
    (h : pattern <:+: before ++ separator :: after) (hfree : separator ∉ pattern) :
    pattern <:+: before ∨ pattern <:+: after := by
  induction before with
  | nil =>
      rcases List.infix_cons_iff.mp h with hstart | hlater
      · have hnil : pattern <+: [] := prefix_of_append_cons hstart hfree
        exact Or.inl hnil.isInfix
      · exact Or.inr hlater
  | cons c before ih =>
      rcases List.infix_cons_iff.mp h with hstart | hlater
      · have hbefore : pattern <+: c :: before := prefix_of_append_cons hstart hfree
        exact Or.inl hbefore.isInfix
      · rcases ih hlater with hbefore | hafter
        · exact Or.inl (List.infix_cons_iff.mpr (Or.inr hbefore))
        · exact Or.inr hafter

theorem not_infix_append_cons
    {pattern before after : List Char} {c : Char} (hc : c ∉ pattern)
    (hbefore : ¬ pattern <:+: before) (hafter : ¬ pattern <:+: after) :
    ¬ pattern <:+: before ++ c :: after := by
  intro hinside
  rcases infix_or_infix_of_append_cons hinside hc with hleft | hright
  · exact hbefore hleft
  · exact hafter hright

theorem strip?_eq_some_iff
    {beginning text rest : List Char} :
    strip? beginning text = some rest ↔ text = beginning ++ rest := by
  induction beginning generalizing text with
  | nil => simp [strip?]
  | cons c beginning ih =>
      cases text with
      | nil => simp [strip?]
      | cons d text =>
          rw [strip?]
          by_cases hc : c = d
          · rw [if_pos hc, ih, hc]
            simp
          · rw [if_neg hc]
            simp [Ne.symm hc]

theorem signature_infix_of_directive?
    {style : Style} {text : List Char} {directive : Directive}
    (h : style.directive? text = some directive) :
    signature <:+: text := by
  unfold Style.directive? at h
  split at h
  · cases h
  · next rest hrest =>
      rw [strip?_eq_some_iff] at hrest
      split at h
      · cases h
      · next keyword payload hkeyword =>
          unfold keyworded? at hkeyword
          split at hkeyword
          · cases hkeyword
          · next after hafter =>
              have hsignature : signature <+: dropBlank rest :=
                ⟨after, (strip?_eq_some_iff.mp hafter).symm⟩
              have hrest : dropBlank rest <:+ text := by
                rw [hrest]
                exact (List.dropWhile_suffix _).trans (List.suffix_append _ _)
              exact hsignature.isInfix.trans hrest.isInfix

theorem find?_eq_none
    {style : Style} {text : List Char} (h : ¬ signature <:+: text) :
    style.find? text = none := by
  induction text with
  | nil => rfl
  | cons c text ih =>
      have hhere : style.directive? (c :: text) = none := by
        by_contra hsome
        obtain ⟨directive, hdirective⟩ := Option.ne_none_iff_exists'.mp hsome
        exact h (signature_infix_of_directive? hdirective)
      have hlater := ih fun hinside => h (List.infix_cons_iff.mpr (Or.inr hinside))
      rw [Style.find?, hhere, hlater]
      rfl

/-! ## Reading the keyword -/

theorem dropBlank_append
    (text rest : List Char) :
    dropBlank (text ++ rest) =
      if dropBlank text = [] then dropBlank rest else dropBlank text ++ rest := by
  unfold dropBlank
  rw [List.dropWhile_append]
  simp only [List.isEmpty_iff]

theorem dropBlank_blanks_append
    {blanks text : List Char} (hblanks : allBlank blanks = true)
    (htext : text.head?.any isSolid = true) :
    dropBlank (blanks ++ text) = text := by
  rw [dropBlank_append, if_pos ((dropBlank_eq_nil_iff blanks).mpr hblanks)]
  cases text with
  | nil => rfl
  | cons c text =>
      have hc : isBlank c = false := by simpa [isSolid] using htext
      exact List.dropWhile_cons_of_neg (by simp [hc])

theorem exists_blanks_append
    (text : List Char) :
    ∃ blanks, allBlank blanks = true ∧ text = blanks ++ dropBlank text :=
  ⟨text.takeWhile isBlank, List.all_takeWhile, List.takeWhile_append_dropWhile.symm⟩

theorem solid_of_dropBlank_ne_nil
    {text : List Char} (h : dropBlank text ≠ []) :
    (dropBlank text).head?.any isSolid = true := by
  obtain ⟨c, rest, hcons⟩ := List.exists_cons_of_ne_nil h
  have hc : isBlank c = false := by
    have hhead := List.head?_dropWhile_not isBlank text
    rw [← dropBlank, hcons] at hhead
    simpa using hhead
  rw [hcons]
  simp [isSolid, hc]

/-- A word ends at the first blank. -/
theorem takeWhile_isSolid_append
    {word rest : List Char} {c : Char} (hword : word.all isSolid = true)
    (hc : isBlank c = true) :
    (word ++ c :: rest).takeWhile isSolid = word := by
  rw [List.takeWhile_append_of_pos (List.all_eq_true.mp hword),
    List.takeWhile_cons_of_neg (by simp [isSolid, hc]), List.append_nil]

theorem Keyword.text_all_isSolid
    (keyword : Keyword) :
    keyword.text.all isSolid = true := by
  cases keyword <;> decide

theorem Keyword.text_injective
    {keyword other : Keyword} (h : keyword.text = other.text) :
    keyword = other := by
  revert h
  cases keyword <;> cases other <;> decide

theorem afterKeyword?_eq_some_iff
    {keyword : Keyword} {text payload : List Char} :
    afterKeyword? keyword text = some payload ↔
      payload.head?.any isSolid = true ∧
        ∃ gap, allBlank gap = true ∧ gap ≠ [] ∧ text = keyword.text ++ (gap ++ payload) := by
  constructor
  · intro h
    unfold afterKeyword? at h
    split at h
    · next c rest hstrip =>
        rw [strip?_eq_some_iff] at hstrip
        split at h
        · next hc =>
            split at h
            · cases h
            · next hne =>
                cases h
                obtain ⟨blanks, hblanks, hrest⟩ := exists_blanks_append rest
                refine ⟨solid_of_dropBlank_ne_nil hne, c :: blanks, ?_, by simp, ?_⟩
                · simpa [allBlank, hc] using hblanks
                · rw [hstrip, List.cons_append, ← hrest]
        · cases h
    · cases h
  · rintro ⟨hsolid, gap, hgap, hne, rfl⟩
    obtain ⟨c, blanks, rfl⟩ := List.exists_cons_of_ne_nil hne
    obtain ⟨hc, hblanks⟩ : isBlank c = true ∧ allBlank blanks = true := by
      simpa [allBlank] using hgap
    unfold afterKeyword?
    rw [strip?_eq_some_iff.mpr rfl]
    simp only [List.cons_append, hc, if_true, dropBlank_blanks_append hblanks hsolid]
    split
    · cases hsolid
    · rfl

theorem takeWhile_isSolid_of_afterKeyword?
    {keyword : Keyword} {text payload : List Char}
    (h : afterKeyword? keyword text = some payload) :
    text.takeWhile isSolid = keyword.text := by
  obtain ⟨_, gap, hgap, hne, rfl⟩ := afterKeyword?_eq_some_iff.mp h
  obtain ⟨c, blanks, rfl⟩ := List.exists_cons_of_ne_nil hne
  have hc : isBlank c = true := List.all_eq_true.mp hgap c List.mem_cons_self
  exact takeWhile_isSolid_append keyword.text_all_isSolid hc

/-- Only one keyword can be read from a text. -/
theorem afterKeyword?_eq_ite
    {keyword other : Keyword} {text payload : List Char}
    (h : afterKeyword? keyword text = some payload) :
    afterKeyword? other text = if other = keyword then some payload else none := by
  by_cases heq : other = keyword
  · rw [if_pos heq, heq, h]
  · rw [if_neg heq, Option.eq_none_iff_forall_ne_some]
    intro otherPayload hother
    have hsame := (takeWhile_isSolid_of_afterKeyword? hother).symm.trans
      (takeWhile_isSolid_of_afterKeyword? h)
    exact heq (Keyword.text_injective hsame)

theorem keyworded?_eq_some_iff
    {text : List Char} {keyword : Keyword} {payload : List Char} :
    keyworded? text = some (keyword, payload) ↔
      payload.head?.any isSolid = true ∧
        ∃ blanks gap, allBlank blanks = true ∧ allBlank gap = true ∧ gap ≠ [] ∧
          text = blanks ++ (signature ++ (keyword.text ++ (gap ++ payload))) := by
  constructor
  · intro h
    unfold keyworded? at h
    split at h
    · cases h
    · next rest hrest =>
        rw [strip?_eq_some_iff] at hrest
        obtain ⟨found, _, hfound⟩ := List.exists_of_findSome?_eq_some h
        obtain ⟨_, hafter, hpair⟩ := Option.map_eq_some_iff.mp hfound
        cases hpair
        obtain ⟨hsolid, gap, hgap, hne, rfl⟩ := afterKeyword?_eq_some_iff.mp hafter
        obtain ⟨blanks, hblanks, htext⟩ := exists_blanks_append text
        exact ⟨hsolid, blanks, gap, hblanks, hgap, hne, by rw [← hrest, ← htext]⟩
  · rintro ⟨hsolid, blanks, gap, hblanks, hgap, hne, rfl⟩
    have hafter :
        afterKeyword? keyword (keyword.text ++ (gap ++ payload)) = some payload :=
      afterKeyword?_eq_some_iff.mpr ⟨hsolid, gap, hgap, hne, rfl⟩
    unfold keyworded?
    rw [dropBlank_blanks_append hblanks rfl, strip?_eq_some_iff.mpr rfl]
    cases keyword <;> simp [afterKeyword?_eq_ite hafter]

/-! ## The signature of a directive -/

theorem not_mem_signature_of_isBlank
    {c : Char} (hc : isBlank c = true) :
    c ∉ signature := by
  have hsolid : signature.all isSolid = true := by decide
  intro hmem
  have hc' : isSolid c = true := List.all_eq_true.mp hsolid c hmem
  simp [isSolid, hc] at hc'

theorem not_signature_infix_marks_append
    {marks text : List Char} (hmarks : ∀ c ∈ marks, c ∉ signature)
    (htext : ¬ signature <:+: text) :
    ¬ signature <:+: marks ++ text := by
  induction marks with
  | nil => exact htext
  | cons c marks ih =>
      have hrest := ih fun d hd => hmarks d (List.mem_cons_of_mem c hd)
      exact not_infix_append_cons (hmarks c List.mem_cons_self)
        (by decide : ¬ signature <:+: []) hrest

/-- After its first letter, the signature does not come again in the text of a directive. -/
theorem not_signature_infix_tail
    (keyword : Keyword) {gap payload : List Char} (hgap : allBlank gap = true)
    (hne : gap ≠ []) (hpayload : ¬ signature <:+: payload) :
    ¬ signature <:+: signature.tail ++ (keyword.text ++ (gap ++ payload)) := by
  have hmarks : ∀ c ∈ gap, c ∉ signature := fun c hc =>
    not_mem_signature_of_isBlank (List.all_eq_true.mp hgap c hc)
  obtain ⟨c, blanks, rfl⟩ := List.exists_cons_of_ne_nil hne
  rw [← List.append_assoc, List.cons_append]
  refine not_infix_append_cons (hmarks c List.mem_cons_self) ?_
    (not_signature_infix_marks_append (fun d hd => hmarks d (List.mem_cons_of_mem c hd))
      hpayload)
  cases keyword <;> decide

/-! ## The directive of a comment -/

/-- Nothing opens again between the opener and the signature. -/
theorem find?_opener_tail
    {style other : Style} {text : List Char} (h : other.find? text = none) :
    other.find? (style.opener.tail ++ ' ' :: 's' :: text) = none := by
  cases other <;> cases style <;>
    simp [Style.find?, Style.directive?, Style.opener, strip?, h]

theorem directive?_comment_of_ne
    {style other : Style} (h : other ≠ style) {keyword : Keyword} {payload : List Char} :
    other.directive? (style.comment keyword payload) = none := by
  cases other <;> cases style <;>
    first
    | exact absurd rfl h
    | simp [Style.directive?, Style.comment, Style.opener, strip?]

section Comment

variable {payload : List Char} (h : PlainPayload payload)
include h

theorem PlainPayload.eq_cons :
    ∃ c rest, payload = c :: rest ∧ isBlank c = false := by
  obtain ⟨c, hhead, hc⟩ := (Option.any_eq_true _ _).mp h.first
  obtain ⟨rest, rfl⟩ := List.head?_eq_some_iff.mp hhead
  exact ⟨c, rest, rfl, by simpa [isSolid] using hc⟩

/-- After its first letter the signature does not come again. -/
theorem PlainPayload.signature_once
    (style : Style) (keyword : Keyword) :
    ¬ signature <:+:
      signature.tail ++ (keyword.text ++ ' ' :: (payload ++ style.closer)) := by
  have hclosed : ¬ signature <:+: payload ++ style.closer := by
    cases style with
    | block =>
        exact not_infix_append_cons (by decide) h.no_signature
          (by decide : ¬ signature <:+: ['*', '/'])
    | _ =>
        rw [Style.closer, List.append_nil]
        exact h.no_signature
  have hgap : [' '] ≠ [] := List.cons_ne_nil _ _
  exact not_signature_infix_tail keyword rfl hgap hclosed

/-- In its own style a comment is read by its payload. -/
theorem PlainPayload.directive?_comment
    (style : Style) (keyword : Keyword) :
    style.directive? (style.comment keyword payload) =
      (style.payload? (payload ++ style.closer)).map fun entry =>
        { keyword, rule := entry.1, reason := entry.2 } := by
  have hsolid : (payload ++ style.closer).head?.any isSolid = true := by
    obtain ⟨c, rest, rfl, hc⟩ := h.eq_cons
    simp [isSolid, hc]
  have hkeyword :
      keyworded? (' ' :: (signature ++ (keyword.text ++ ' ' :: (payload ++ style.closer)))) =
        some (keyword, payload ++ style.closer) :=
    keyworded?_eq_some_iff.mpr ⟨hsolid, [' '], [' '], rfl, rfl, List.cons_ne_nil _ _, rfl⟩
  unfold Style.directive? Style.comment
  rw [strip?_eq_some_iff.mpr rfl]
  simp only [hkeyword]

/-- A comment is a directive of its own style, if its payload can be read in that style,
and of no other style. -/
theorem PlainPayload.find?_comment
    (style other : Style) (keyword : Keyword) :
    other.find? (style.comment keyword payload) =
      if other = style then
        (style.payload? (payload ++ style.closer)).map fun entry =>
          ([], { keyword, rule := entry.1, reason := entry.2 })
      else none := by
  have hlater :
      other.find? (signature.tail ++ (keyword.text ++ ' ' :: (payload ++ style.closer))) =
        none :=
    find?_eq_none (h.signature_once style keyword)
  obtain ⟨c, hcomment⟩ :
      ∃ c, style.comment keyword payload =
        c :: (style.opener.tail ++ ' ' :: 's' ::
          (signature.tail ++ (keyword.text ++ ' ' :: (payload ++ style.closer)))) := by
    cases style with
    | _ => exact ⟨_, rfl⟩
  rw [hcomment, Style.find?, find?_opener_tail hlater, ← hcomment]
  by_cases heq : other = style
  · rw [if_pos heq, heq, h.directive?_comment]
    cases style.payload? (payload ++ style.closer) with
    | none => rfl
    | some entry => rfl
  · rw [if_neg heq, directive?_comment_of_ne heq]
    rfl

theorem PlainPayload.lineDirective?_comment
    (style : Style) (keyword : Keyword) :
    lineDirective? (style.comment keyword payload) =
      (style.payload? (payload ++ style.closer)).map fun entry =>
        ([], { keyword, rule := entry.1, reason := entry.2 }) := by
  unfold lineDirective?
  cases hentry : style.payload? (payload ++ style.closer) with
  | none => simp [h.find?_comment, hentry]
  | some entry => cases style <;> simp [h.find?_comment, hentry]

/-- A comment alone in a file asks for what its payload says. -/
theorem PlainPayload.parse_comment
    (file : String) (style : Style) (keyword : Keyword) :
    parse file (style.comment keyword payload) =
      ((style.payload? (payload ++ style.closer)).map (requested file keyword)).toList := by
  have hbreak : '\n' ∉ style.comment keyword payload := by
    have hopener : '\n' ∉ style.opener := by cases style <;> decide
    have hsignature : '\n' ∉ signature := by decide
    have hkeyword : '\n' ∉ keyword.text := by cases keyword <;> decide
    have hcloser : '\n' ∉ style.closer := by cases style <;> decide
    simp [Style.comment, hopener, hsignature, hkeyword, hcloser, h.no_break]
  have hlines : lines (style.comment keyword payload) = [style.comment keyword payload] := by
    unfold lines
    rw [splitOn_eq, List.splitOn_eq_singleton hbreak]
    cases style <;> rfl
  unfold parse
  rw [hlines, ofLines, ofLines, List.append_nil, ofLine?, h.lineDirective?_comment]
  cases style.payload? (payload ++ style.closer) with
  | none => rfl
  | some entry => cases keyword <;> rfl

theorem PlainPayload.parse_comment_of_ne_block
    (file : String) (style : Style) (keyword : Keyword) (hstyle : style ≠ .block) :
    parse file (style.comment keyword payload) =
      [requested file keyword (linePayload payload)] := by
  rw [h.parse_comment]
  cases style with
  | block => exact absurd rfl hstyle
  | _ =>
      rw [Style.closer, List.append_nil]
      rfl

end Comment

end HandlerLint.Suppression
