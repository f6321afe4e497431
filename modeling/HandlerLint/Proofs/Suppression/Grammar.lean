import Mathlib.Data.Nat.Find
import HandlerLint.Proofs.Suppression.Style

/-!
# The grammar of directives

A directive of a style starts at the style's opener, with blanks, the signature, a keyword
and at least one more blank in front of a payload.  Of the places in a line where a style
occurs the first one counts, and of the styles that occur in a line the first one in the
order `//`, `#`, `/*` counts, wherever it stands.

The grammar is stated as predicates on texts, without the functions that read them.  Each
reader is then the exact counterpart of one predicate, from the keyword up to the line, and
what a line asks for follows from the one directive that the grammar gives it.
-/

namespace HandlerLint.Suppression

open HandlerLint.Text

/-! ## The grammar -/

/-- A text starts like a directive of a style: it is the opener, any blanks, the signature,
a keyword, at least one blank, and a payload whose first character is not blank. -/
structure Style.Starts (style : Style) (text : List Char) (keyword : Keyword)
    (payload : List Char) : Prop where
  spelling : ∃ blanks gap, allBlank blanks = true ∧ allBlank gap = true ∧ gap ≠ [] ∧
    text = style.opener ++ (blanks ++ (signature ++ (keyword.text ++ (gap ++ payload))))
  solid : payload.head?.any isSolid = true

/-- The reason in what follows a rule up to the end of the line.  It is the trimmed text
after a hyphen, if a hyphen comes first among the characters that are not blank. -/
inductive ReasonAfter : List Char → List Char → Prop
  | hyphen {blanks text : List Char} :
      allBlank blanks = true → ReasonAfter (blanks ++ '-' :: text) (trim text)
  | other {after : List Char} :
      (∀ blanks text, allBlank blanks = true → after ≠ blanks ++ '-' :: text) →
        ReasonAfter after []

/-- The reason in what follows a rule up to the first `*/`.  There has to be a `*/`, and
nothing but a reason stands before it. -/
inductive ReasonBeforeCloser : List Char → List Char → Prop
  | hyphen {blanks text rest : List Char} :
      allBlank blanks = true → ¬ ['*', '/'] <:+: text →
        ReasonBeforeCloser (blanks ++ '-' :: (text ++ '*' :: '/' :: rest)) (trim text)
  | closer {blanks rest : List Char} :
      allBlank blanks = true → ReasonBeforeCloser (blanks ++ '*' :: '/' :: rest) []

/-- A payload that runs to the end of the line: the rule is the whole run of characters that
are not blank. -/
structure LineSays (payload rule reason : List Char) : Prop where
  solid : rule.all isSolid = true
  rest : ∃ after, payload = rule ++ after ∧ after.head?.all isBlank = true ∧
    ReasonAfter after reason

/-- A rule that a payload in a block comment can start with. -/
structure Closable (payload rule reason : List Char) : Prop where
  nonempty : rule ≠ []
  solid : rule.all isSolid = true
  rest : ∃ after, payload = rule ++ after ∧ ReasonBeforeCloser after reason

/-- A payload in a block comment: the rule is the longest one that it can start with. -/
structure BlockSays (payload rule reason : List Char) : Prop where
  closable : Closable payload rule reason
  longest : ∀ other otherReason, Closable payload other otherReason →
    other.length ≤ rule.length

/-- The rule and the reason of a payload in a style. -/
def Style.Says (style : Style) (payload rule reason : List Char) : Prop :=
  match style with
  | .slashes | .hash => LineSays payload rule reason
  | .block => BlockSays payload rule reason

/-- Every payload can stand in a style that runs to the end of the line; in a block comment
it has to start with some rule. -/
def Style.Admits (style : Style) (payload : List Char) : Prop :=
  match style with
  | .slashes | .hash => True
  | .block => ∃ rule reason, Closable payload rule reason

/-- A directive of a style stands at a place of a line. -/
def Style.OccursAt (style : Style) (line : List Char) (start : Nat) : Prop :=
  ∃ keyword payload, style.Starts (line.drop start) keyword payload ∧ style.Admits payload

/-- A directive of a style stands somewhere in a line. -/
def Style.Occurs (style : Style) (line : List Char) : Prop :=
  ∃ start, style.OccursAt line start

/-- The directive of a style in a line: the one at the first place where the style occurs. -/
structure Style.Reads (style : Style) (line : List Char) (start : Nat)
    (directive : Directive) : Prop where
  here : ∃ payload, style.Starts (line.drop start) directive.keyword payload ∧
    style.Says payload directive.rule directive.reason
  leftmost : ∀ earlier < start, ¬ style.OccursAt line earlier

/-- The place of a style in the order of preference. -/
def Style.rank : Style → Nat
  | .slashes => 0
  | .hash => 1
  | .block => 2

/-- The style that counts in a line. -/
structure Style.Prevails (style : Style) (line : List Char) : Prop where
  occurs : style.Occurs line
  first : ∀ other : Style, other.rank < style.rank → ¬ other.Occurs line

/-- What a line yields, given the number of the line, the text before its directive and the
directive. -/
inductive Yields (file : String) (number : Nat) (before : List Char) :
    Directive → Option Suppression → Prop
  | file {rule reason : List Char} :
      number ≤ 10 →
        Yields file number before ⟨.ignoreFile, rule, reason⟩
          (some ⟨String.ofList rule, String.ofList reason, file, 0, .file⟩)
  | late {rule reason : List Char} :
      10 < number → Yields file number before ⟨.ignoreFile, rule, reason⟩ none
  | nextLine {rule reason : List Char} :
      Yields file number before ⟨.ignoreNextLine, rule, reason⟩
        (some ⟨String.ofList rule, String.ofList reason, file, number, .nextLine⟩)
  | alone {rule reason : List Char} :
      allBlank before = true →
        Yields file number before ⟨.ignore, rule, reason⟩
          (some ⟨String.ofList rule, String.ofList reason, file, number, .nextLine⟩)
  | trailing {rule reason : List Char} :
      allBlank before = false →
        Yields file number before ⟨.ignore, rule, reason⟩
          (some ⟨String.ofList rule, String.ofList reason, file, number, .line⟩)

/-! ## The payload to the end of the line -/

theorem reasonAfter_iff
    {after reason : List Char} :
    ReasonAfter after reason ↔ (followingReason? after).getD [] = reason := by
  have hhyphen : ∀ {blanks text : List Char}, allBlank blanks = true →
      dropBlank (blanks ++ '-' :: text) = '-' :: text :=
    fun hblanks => dropBlank_blanks_append hblanks rfl
  unfold followingReason?
  constructor
  · intro h
    cases h with
    | hyphen hblanks =>
        rw [hhyphen hblanks]
        rfl
    | other hother =>
        split
        · rfl
        · next rest hdrop =>
            obtain ⟨blanks, hblanks, hafter⟩ := exists_blanks_append after
            exact absurd (hdrop ▸ hafter) (hother blanks rest hblanks)
        · rfl
  · rintro rfl
    split
    · next hnil =>
        refine .other fun blanks text hblanks hafter => ?_
        rw [hafter, hhyphen hblanks] at hnil
        cases hnil
    · next rest hdrop =>
        obtain ⟨blanks, hblanks, hafter⟩ := exists_blanks_append after
        rw [hdrop] at hafter
        rw [hafter]
        exact .hyphen hblanks
    · next hother =>
        refine .other fun blanks text hblanks hafter => ?_
        rw [hafter] at hother
        exact hother text (hhyphen hblanks)

theorem linePayload_eq_iff
    {payload rule reason : List Char} :
    linePayload payload = (rule, reason) ↔ LineSays payload rule reason := by
  rw [linePayload_eq, Prod.mk.injEq]
  constructor
  · rintro ⟨rfl, hreason⟩
    have hhead := List.head?_dropWhile_not isSolid payload
    refine ⟨List.all_takeWhile, payload.dropWhile isSolid,
      List.takeWhile_append_dropWhile.symm, ?_, reasonAfter_iff.mpr hreason⟩
    cases hrest : (payload.dropWhile isSolid).head? with
    | none => rfl
    | some c =>
        rw [hrest] at hhead
        simpa [isSolid] using hhead
  · rintro ⟨hsolid, after, rfl, hhead, hreason⟩
    have hstop : after.takeWhile isSolid = [] ∧ after.dropWhile isSolid = after := by
      cases after with
      | nil => exact ⟨rfl, rfl⟩
      | cons c after =>
          have hc : isSolid c = false := by simpa [isSolid] using hhead
          simp [hc]
    rw [List.takeWhile_append_of_pos (List.all_eq_true.mp hsolid),
      List.dropWhile_append_of_pos (List.all_eq_true.mp hsolid), hstop.1, hstop.2,
      List.append_nil]
    exact ⟨rfl, reasonAfter_iff.mp hreason⟩

/-! ## The payload of a block comment -/

theorem closedReason?_eq_some_iff
    {text reason : List Char} :
    closedReason? text = some reason ↔ ReasonBeforeCloser text reason := by
  unfold closedReason?
  constructor
  · intro h
    obtain ⟨blanks, hblanks, htext⟩ := exists_blanks_append text
    split at h
    · next after hdrop =>
        obtain ⟨body, hbody, rfl⟩ := Option.map_eq_some_iff.mp h
        obtain ⟨hclear, rest, rfl⟩ := beforeCloser?_eq_some_iff.mp hbody
        rw [htext, hdrop]
        exact .hyphen hblanks hclear
    · next rest hdrop =>
        cases h
        rw [htext, hdrop]
        exact .closer hblanks
    · cases h
  · intro h
    cases h with
    | hyphen hblanks hclear =>
        rw [dropBlank_blanks_append hblanks rfl]
        simp only [beforeCloser?_eq_some_iff.mpr ⟨hclear, _, rfl⟩, Option.map_some]
    | closer hblanks =>
        rw [dropBlank_blanks_append hblanks rfl]
        rfl

/-- A rule of some length that a payload can start with is read at that length. -/
theorem closed_eq_some_iff
    {payload rule reason : List Char} {shorter : Nat}
    (h : shorter < (payload.takeWhile isSolid).length) :
    ((closedReason? (payload.drop (shorter + 1))).map fun found =>
        (payload.take (shorter + 1), found)) = some (rule, reason) ↔
      Closable payload rule reason ∧ rule.length = shorter + 1 := by
  constructor
  · intro hfound
    obtain ⟨found, hreason, hpair⟩ := Option.map_eq_some_iff.mp hfound
    cases hpair
    have hlength : (payload.take (shorter + 1)).length = shorter + 1 := by
      rw [List.length_take]
      exact Nat.min_eq_left (Nat.le_trans h (List.takeWhile_prefix _).length_le)
    have hsolid : (payload.take (shorter + 1)).all isSolid = true := by
      have htake : payload.take (shorter + 1) =
          (payload.takeWhile isSolid).take (shorter + 1) := by
        conv_lhs => rw [← @List.takeWhile_append_dropWhile _ isSolid payload]
        exact List.take_append_of_le_length h
      rw [htake, List.all_eq_true]
      intro c hc
      exact List.all_eq_true.mp List.all_takeWhile c (List.mem_of_mem_take hc)
    refine ⟨⟨?_, hsolid, payload.drop (shorter + 1), (List.take_append_drop _ _).symm,
      closedReason?_eq_some_iff.mp hreason⟩, hlength⟩
    exact List.ne_nil_of_length_eq_add_one hlength
  · rintro ⟨⟨_, _, after, rfl, hreason⟩, hlength⟩
    rw [← hlength, List.drop_left, List.take_left, closedReason?_eq_some_iff.mpr hreason]
    rfl

theorem Closable.exists_closed
    {payload rule reason : List Char} (h : Closable payload rule reason) :
    ∃ shorter < (payload.takeWhile isSolid).length, rule.length = shorter + 1 ∧
      ((closedReason? (payload.drop (shorter + 1))).map fun found =>
        (payload.take (shorter + 1), found)) = some (rule, reason) := by
  obtain ⟨shorter, hlength⟩ := Nat.exists_eq_add_one_of_ne_zero
    (mt List.length_eq_zero_iff.mp h.nonempty)
  have hshorter : shorter < (payload.takeWhile isSolid).length := by
    obtain ⟨after, rfl, _⟩ := h.rest
    rw [List.takeWhile_append_of_pos (List.all_eq_true.mp h.solid), List.length_append]
    omega
  exact ⟨shorter, hshorter, hlength, (closed_eq_some_iff hshorter).mpr ⟨h, hlength⟩⟩

theorem exists_of_findSome?_reverse_range
    {β : Type} {f : Nat → Option β} {count : Nat} {value : β}
    (h : (List.range count).reverse.findSome? f = some value) :
    ∃ index < count, f index = some value ∧ ∀ k, index < k → k < count → f k = none := by
  induction count with
  | zero => cases h
  | succ count ih =>
      rw [List.range_succ, List.reverse_append, List.reverse_singleton, List.singleton_append,
        List.findSome?_cons] at h
      split at h
      · next hvalue =>
          cases h
          exact ⟨count, Nat.lt_succ_self count, hvalue, fun k hk hcount => by omega⟩
      · next hnone =>
          obtain ⟨index, hindex, hvalue, hlater⟩ := ih h
          refine ⟨index, Nat.lt_succ_of_lt hindex, hvalue, fun k hk hcount => ?_⟩
          rcases Nat.lt_succ_iff_lt_or_eq.mp hcount with hlt | rfl
          · exact hlater k hk hlt
          · exact hnone

theorem blockPayload?_eq_some_iff
    {payload rule reason : List Char} :
    blockPayload? payload = some (rule, reason) ↔ BlockSays payload rule reason := by
  unfold blockPayload?
  constructor
  · intro h
    obtain ⟨shorter, hshorter, hfound, hlater⟩ := exists_of_findSome?_reverse_range h
    obtain ⟨hclosable, hlength⟩ := (closed_eq_some_iff hshorter).mp hfound
    refine ⟨hclosable, fun other otherReason hother => ?_⟩
    obtain ⟨longer, hcount, hotherLength, hotherFound⟩ := hother.exists_closed
    -- A longer rule would have been tried before.
    by_contra hlonger
    rw [hlater longer (by omega) hcount] at hotherFound
    cases hotherFound
  · rintro ⟨hclosable, hlongest⟩
    obtain ⟨shorter, hshorter, hlength, hfound⟩ := hclosable.exists_closed
    refine findSome?_reverse_range hshorter hfound fun longer hlonger hcount => ?_
    rw [Option.eq_none_iff_forall_ne_some]
    rintro ⟨other, otherReason⟩ hother
    obtain ⟨hotherClosable, hotherLength⟩ := (closed_eq_some_iff hcount).mp hother
    have hle := hlongest other otherReason hotherClosable
    omega

/-- A payload that can start with some rule is read with one. -/
theorem isSome_blockPayload?_iff
    {payload : List Char} :
    (blockPayload? payload).isSome = true ↔ ∃ rule reason, Closable payload rule reason := by
  constructor
  · intro h
    obtain ⟨⟨rule, reason⟩, hread⟩ := Option.isSome_iff_exists.mp h
    exact ⟨rule, reason, (blockPayload?_eq_some_iff.mp hread).closable⟩
  · rintro ⟨rule, reason, hclosable⟩
    obtain ⟨shorter, hshorter, _, hfound⟩ := hclosable.exists_closed
    rw [blockPayload?, List.findSome?_isSome_iff]
    refine ⟨shorter, List.mem_reverse.mpr (List.mem_range.mpr hshorter), ?_⟩
    rw [hfound]
    rfl

/-! ## The directive at a place -/

theorem Style.payload?_eq_some_iff
    {style : Style} {payload rule reason : List Char} :
    style.payload? payload = some (rule, reason) ↔ style.Says payload rule reason := by
  cases style with
  | block => exact blockPayload?_eq_some_iff
  | _ => exact Option.some_inj.trans linePayload_eq_iff

theorem Style.isSome_payload?_iff
    {style : Style} {payload : List Char} :
    (style.payload? payload).isSome = true ↔ style.Admits payload := by
  cases style with
  | block => exact isSome_blockPayload?_iff
  | _ => exact iff_of_true rfl trivial

theorem Style.directive?_eq_some_iff
    {style : Style} {text : List Char} {directive : Directive} :
    style.directive? text = some directive ↔
      ∃ payload, style.Starts text directive.keyword payload ∧
        style.Says payload directive.rule directive.reason := by
  unfold Style.directive?
  constructor
  · intro h
    split at h
    · cases h
    · next rest hrest =>
        rw [strip?_eq_some_iff] at hrest
        split at h
        · cases h
        · next keyword payload hkeyword =>
            obtain ⟨⟨rule, reason⟩, hmeans, rfl⟩ := Option.map_eq_some_iff.mp h
            obtain ⟨hsolid, blanks, gap, hblanks, hgap, hne, rfl⟩ :=
              keyworded?_eq_some_iff.mp hkeyword
            exact ⟨payload, ⟨⟨blanks, gap, hblanks, hgap, hne, hrest⟩, hsolid⟩,
              Style.payload?_eq_some_iff.mp hmeans⟩
  · rintro ⟨payload, ⟨⟨blanks, gap, hblanks, hgap, hne, rfl⟩, hsolid⟩, hmeans⟩
    have hkeyword :
        keyworded? (blanks ++ (signature ++ (directive.keyword.text ++ (gap ++ payload)))) =
          some (directive.keyword, payload) :=
      keyworded?_eq_some_iff.mpr ⟨hsolid, blanks, gap, hblanks, hgap, hne, rfl⟩
    rw [strip?_eq_some_iff.mpr rfl]
    simp only [hkeyword, Style.payload?_eq_some_iff.mpr hmeans, Option.map_some]

theorem Style.occursAt_iff
    {style : Style} {line : List Char} {start : Nat} :
    style.OccursAt line start ↔
      ∃ directive, style.directive? (line.drop start) = some directive := by
  constructor
  · rintro ⟨keyword, payload, hstarts, hadmits⟩
    obtain ⟨⟨rule, reason⟩, hmeans⟩ :=
      Option.isSome_iff_exists.mp (Style.isSome_payload?_iff.mpr hadmits)
    exact ⟨⟨keyword, rule, reason⟩, Style.directive?_eq_some_iff.mpr
      ⟨payload, hstarts, Style.payload?_eq_some_iff.mp hmeans⟩⟩
  · rintro ⟨directive, hdirective⟩
    obtain ⟨payload, hstarts, hmeans⟩ := Style.directive?_eq_some_iff.mp hdirective
    refine ⟨directive.keyword, payload, hstarts, Style.isSome_payload?_iff.mp ?_⟩
    rw [Style.payload?_eq_some_iff.mpr hmeans]
    rfl

/-! ## The directive of a line -/

theorem Style.reads_iff
    {style : Style} {line : List Char} {start : Nat} {directive : Directive} :
    style.Reads line start directive ↔
      style.directive? (line.drop start) = some directive ∧
        ∀ earlier < start, style.directive? (line.drop earlier) = none := by
  have hnone : ∀ {earlier : Nat},
      ¬ style.OccursAt line earlier ↔ style.directive? (line.drop earlier) = none := by
    intro earlier
    rw [Style.occursAt_iff, not_exists, Option.eq_none_iff_forall_ne_some]
  constructor
  · rintro ⟨hhere, hleftmost⟩
    exact ⟨Style.directive?_eq_some_iff.mpr hhere,
      fun earlier hearlier => hnone.mp (hleftmost earlier hearlier)⟩
  · rintro ⟨hhere, hleftmost⟩
    exact ⟨Style.directive?_eq_some_iff.mp hhere,
      fun earlier hearlier => hnone.mpr (hleftmost earlier hearlier)⟩

instance (style : Style) (line : List Char) (start : Nat) (directive : Directive) :
    Decidable (style.Reads line start directive) :=
  decidable_of_iff _ Style.reads_iff.symm

theorem Style.Reads.occurs
    {style : Style} {line : List Char} {start : Nat} {directive : Directive}
    (h : style.Reads line start directive) :
    style.Occurs line :=
  ⟨start, Style.occursAt_iff.mpr ⟨directive, (Style.reads_iff.mp h).1⟩⟩

/-- A style that occurs in a line has a first place in it. -/
theorem Style.Occurs.exists_reads
    {style : Style} {line : List Char} (h : style.Occurs line) :
    ∃ start directive, style.Reads line start directive := by
  classical
  obtain ⟨directive, hdirective⟩ := Style.occursAt_iff.mp (Nat.find_spec h)
  exact ⟨Nat.find h, directive, Style.directive?_eq_some_iff.mp hdirective,
    fun earlier hearlier => Nat.find_min h hearlier⟩

theorem Style.find?_eq_some_iff
    {style : Style} {line before : List Char} {directive : Directive} :
    style.find? line = some (before, directive) ↔
      ∃ start, before = line.take start ∧ style.Reads line start directive := by
  induction line generalizing before with
  | nil =>
      have hnothing : style.directive? [] = none := by cases style <;> rfl
      simp [Style.find?, Style.reads_iff, hnothing]
  | cons c line ih =>
      simp only [Style.reads_iff] at ih ⊢
      rw [Style.find?]
      cases hhere : style.directive? (c :: line) with
      | some found =>
          constructor
          · intro h
            cases h
            exact ⟨0, rfl, hhere, fun earlier hearlier => absurd hearlier (Nat.not_lt_zero _)⟩
          · rintro ⟨start, rfl, hdirective, hleftmost⟩
            cases start with
            | zero =>
                rw [List.drop_zero, hhere] at hdirective
                cases hdirective
                rfl
            | succ start =>
                have hnone := hleftmost 0 (Nat.succ_pos start)
                rw [List.drop_zero, hhere] at hnone
                cases hnone
      | none =>
          simp only [Option.map_eq_some_iff]
          constructor
          · rintro ⟨⟨later, found⟩, hfound, hpair⟩
            cases hpair
            obtain ⟨start, rfl, hdirective, hleftmost⟩ := ih.mp hfound
            refine ⟨start + 1, rfl, hdirective, fun earlier hearlier => ?_⟩
            cases earlier with
            | zero => exact hhere
            | succ earlier => exact hleftmost earlier (Nat.lt_of_succ_lt_succ hearlier)
          · rintro ⟨start, rfl, hdirective, hleftmost⟩
            cases start with
            | zero =>
                rw [List.drop_zero, hhere] at hdirective
                cases hdirective
            | succ start =>
                refine ⟨(line.take start, directive), ih.mpr ⟨start, rfl, hdirective, ?_⟩, rfl⟩
                intro earlier hearlier
                exact hleftmost (earlier + 1) (Nat.succ_lt_succ hearlier)

theorem Style.find?_eq_none_iff
    {style : Style} {line : List Char} :
    style.find? line = none ↔ ¬ style.Occurs line := by
  constructor
  · intro hnone hoccurs
    obtain ⟨start, directive, hreads⟩ := hoccurs.exists_reads
    rw [Style.find?_eq_some_iff.mpr ⟨start, rfl, hreads⟩] at hnone
    cases hnone
  · intro hnowhere
    rw [Option.eq_none_iff_forall_ne_some]
    rintro ⟨before, directive⟩ hfound
    obtain ⟨start, _, hreads⟩ := Style.find?_eq_some_iff.mp hfound
    exact hnowhere hreads.occurs

instance (style : Style) (line : List Char) : Decidable (style.Occurs line) :=
  decidable_of_iff (¬ style.find? line = none) (not_iff_comm.mp Style.find?_eq_none_iff.symm)

/-- The directive of a line is the one of the style that counts. -/
theorem lineDirective?_of_prevails
    {style : Style} {line : List Char} {start : Nat} {directive : Directive}
    (hprevails : style.Prevails line) (hreads : style.Reads line start directive) :
    lineDirective? line = some (line.take start, directive) := by
  have hfound := Style.find?_eq_some_iff.mpr ⟨start, rfl, hreads⟩
  have hfirst : ∀ other : Style, other.rank < style.rank → other.find? line = none :=
    fun other hrank => Style.find?_eq_none_iff.mpr (hprevails.first other hrank)
  unfold lineDirective?
  cases style with
  | slashes => simp [hfound]
  | hash => simp [hfound, hfirst .slashes (by decide)]
  | block => simp [hfound, hfirst .slashes (by decide), hfirst .hash (by decide)]

theorem lineDirective?_eq_none
    {line : List Char} (h : ∀ style : Style, ¬ style.Occurs line) :
    lineDirective? line = none := by
  unfold lineDirective?
  rw [List.findSome?_eq_none_iff]
  exact fun style _ => Style.find?_eq_none_iff.mpr (h style)

theorem yields_ofLine?
    {file : String} {number : Nat} {line before : List Char} {directive : Directive}
    (h : lineDirective? line = some (before, directive)) :
    Yields file number before directive (ofLine? file number line) := by
  obtain ⟨keyword, rule, reason⟩ := directive
  simp only [ofLine?, h]
  cases keyword with
  | ignoreFile =>
      simp only [coverage?]
      by_cases hnumber : number ≤ fileWindow
      · rw [if_pos hnumber]
        exact .file hnumber
      · rw [if_neg hnumber]
        exact .late (Nat.lt_of_not_le hnumber)
  | ignoreNextLine => exact .nextLine
  | ignore =>
      cases hbefore : allBlank before with
      | true =>
          simp only [coverage?, hbefore]
          exact .alone hbefore
      | false =>
          simp only [coverage?, hbefore]
          exact .trailing hbefore

theorem ofLines_eq_flatMap
    (file : String) (number : Nat) (lines : List (List Char)) :
    ofLines file number lines =
      (lines.zipIdx number).flatMap fun entry => (ofLine? file entry.2 entry.1).toList := by
  induction lines generalizing number with
  | nil => rfl
  | cons line lines ih => rw [ofLines, ih, List.zipIdx_cons, List.flatMap_cons]

/-- The suppressions of a content are those of its lines in order, at most one for each
line.  A line in which a style occurs has a directive of the first such style at the first
place where it occurs, and yields what that directive asks for on that line.  A line in
which no style occurs yields nothing. -/
theorem lines_yield_their_first_directive
    (file : String) (content : List Char) :
    parse file content =
        ((lines content).zipIdx 1).flatMap (fun entry =>
          (ofLine? file entry.2 entry.1).toList) ∧
      ∀ number line,
        (∀ style : Style, style.Prevails line →
          (∃ start directive, style.Reads line start directive) ∧
            ∀ start directive, style.Reads line start directive →
              Yields file number (line.take start) directive (ofLine? file number line)) ∧
          ((∀ style : Style, ¬ style.Occurs line) → ofLine? file number line = none) := by
  refine ⟨ofLines_eq_flatMap file 1 (lines content), fun number line => ⟨?_, ?_⟩⟩
  · intro style hprevails
    refine ⟨hprevails.occurs.exists_reads, fun start directive hreads => ?_⟩
    exact yields_ofLine? (lineDirective?_of_prevails hprevails hreads)
  · intro hnowhere
    rw [ofLine?, lineDirective?_eq_none hnowhere]

/-- A line in which a hash opens a directive for the file, and slashes further on one for
the line. -/
def mixedLine : List Char :=
  "f() # swallowcheck:ignore-file x // swallowcheck:ignore no-hide - by - design ".toList

/-- The slashes count, although the hash stands before them. -/
theorem mixedLine_yields_slashes :
    Style.hash.Occurs mixedLine ∧ Style.slashes.Prevails mixedLine ∧
      Style.slashes.Reads mixedLine 33
        ⟨.ignore, "no-hide".toList, "by - design".toList⟩ ∧
      ofLine? "a.js" 2 mixedLine = some ⟨"no-hide", "by - design", "a.js", 2, .line⟩ := by
  have hhash : Style.hash.Occurs mixedLine := by decide +kernel
  have hreads : Style.slashes.Reads mixedLine 33
      ⟨.ignore, "no-hide".toList, "by - design".toList⟩ := by
    decide +kernel
  have hprevails : Style.slashes.Prevails mixedLine :=
    ⟨hreads.occurs, fun other hrank => absurd hrank (Nat.not_lt_zero _)⟩
  have hbefore : allBlank (mixedLine.take 33) = false := by decide +kernel
  have hyields :=
    (((lines_yield_their_first_directive "a.js" mixedLine).2 2 mixedLine).1 .slashes
      hprevails).2 33 _ hreads
  refine ⟨hhash, hprevails, hreads, ?_⟩
  generalize ofLine? "a.js" 2 mixedLine = yielded at hyields
  cases hyields with
  | alone hblank => rw [hbefore] at hblank; cases hblank
  | trailing _ => decide

end HandlerLint.Suppression
