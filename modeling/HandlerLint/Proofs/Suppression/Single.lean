import HandlerLint.Proofs.Suppression.Grammar

/-!
# Lines with a single directive

Where the signature stands only once in a line, there is no choice between places or styles.
The characters right before it decide: a style occurs only if its opener, with blanks after
it, ends there.  So a directive that is written out in any style, with any text around it,
is read back as it was written.

A plain `ignore` covers the next line if nothing but blanks stands before its opener.  The
opener that counts is the last one before the signature, so a comment that opens with more
slashes or hashes than its style needs has the surplus of them before the opener.  Such a
comment covers its own line even if it stands alone.
-/

namespace HandlerLint.Suppression

open HandlerLint.Text

/-! ## The signature stands once -/

/-- The signature comes neither before a place where it stands nor after, and the character
right before the place is none of its own.  Then it stands in no other place. -/
theorem eq_of_append_signature
    {ahead behind other rest : List Char} (hahead : ¬ signature <:+: ahead)
    (hlast : ∀ c, ahead.getLast? = some c → c ∉ signature)
    (hbehind : ¬ signature <:+: signature.tail ++ behind)
    (h : other ++ (signature ++ rest) = ahead ++ (signature ++ behind)) :
    other = ahead := by
  rcases List.append_eq_append_iff.mp h with ⟨gap, hgap, hrest⟩ | ⟨gap, hgap, hrest⟩
  · rcases List.eq_nil_or_concat' gap with rfl | ⟨gap, c, rfl⟩
    · rw [hgap, List.append_nil]
    · -- An earlier place would have to reach over the character before the signature.
      have hc : c ∉ signature := hlast c (by rw [hgap]; simp)
      have hstart : signature <+: gap ++ c :: (signature ++ behind) :=
        ⟨rest, by rw [hrest]; simp⟩
      have hinside : signature <:+: gap := (prefix_of_append_cons hstart hc).isInfix
      exact absurd (hinside.trans ⟨other, [c], by rw [hgap, List.append_assoc]⟩) hahead
  · cases gap with
    | nil => rw [hgap, List.append_nil]
    | cons c gap =>
        -- A later place would lie behind the first letter of the signature.
        have hlater : signature.tail ++ behind = gap ++ (signature ++ rest) :=
          (List.cons.inj hrest).2
        exact absurd ⟨gap, rest, by rw [hlater, List.append_assoc]⟩ hbehind

theorem forall_not_mem_signature
    {marks : List Char} (h : marks.all (fun c => ! signature.contains c) = true) :
    ∀ c ∈ marks, c ∉ signature := by
  intro c hc hmem
  have habsent := List.all_eq_true.mp h c hc
  rw [List.contains_iff_mem.mpr hmem] at habsent
  cases habsent

theorem Style.opener_append_ne_nil
    (style : Style) (text : List Char) :
    style.opener ++ text ≠ [] := by
  cases style <;> simp [Style.opener]

/-- A character of an opener, or a blank after it, is none of the signature. -/
theorem not_mem_signature_of_mem_opening
    (style : Style) {blanks : List Char} (hblanks : allBlank blanks = true) :
    ∀ c ∈ style.opener ++ blanks, c ∉ signature := by
  have hopener : ∀ c ∈ style.opener, c ∉ signature :=
    forall_not_mem_signature (by cases style <;> decide)
  intro c hc
  rcases List.mem_append.mp hc with hmark | hblank
  · exact hopener c hmark
  · exact not_mem_signature_of_isBlank (List.all_eq_true.mp hblanks c hblank)

theorem not_signature_infix_append_marks
    {before marks : List Char} (hmarks : ∀ c ∈ marks, c ∉ signature)
    (hbefore : ¬ signature <:+: before) :
    ¬ signature <:+: before ++ marks := by
  cases marks with
  | nil => rwa [List.append_nil]
  | cons c marks =>
      have hrest := not_signature_infix_marks_append
        (fun d hd => hmarks d (List.mem_cons_of_mem c hd)) (by decide : ¬ signature <:+: [])
      rw [List.append_nil] at hrest
      exact not_infix_append_cons (hmarks c List.mem_cons_self) hbefore hrest

/-! ## One place and one style -/

/-- The last character of an opener. -/
def Style.mark : Style → Char
  | .slashes => '/'
  | .hash => '#'
  | .block => '*'

theorem Style.mark_injective
    {style other : Style} (h : style.mark = other.mark) :
    style = other := by
  revert h
  cases style <;> cases other <;> decide

theorem Style.getLast?_append_opener
    (style : Style) (text : List Char) :
    (text ++ style.opener).getLast? = some style.mark := by
  cases style <;> simp [Style.opener, Style.mark]

theorem dropTrailingBlank_append_blanks
    {text blanks : List Char} (hblanks : allBlank blanks = true)
    (htext : text.getLast?.any isSolid = true) :
    dropTrailingBlank (text ++ blanks) = text := by
  have hreverse : dropBlank (blanks.reverse ++ text.reverse) = text.reverse :=
    dropBlank_blanks_append (by rwa [allBlank, List.all_reverse]) (by rwa [List.head?_reverse])
  unfold dropTrailingBlank
  rw [List.reverse_append, ← dropBlank, hreverse, List.reverse_reverse]

theorem Style.dropTrailingBlank_opening
    (style : Style) (before : List Char) {blanks : List Char}
    (hblanks : allBlank blanks = true) :
    dropTrailingBlank (before ++ (style.opener ++ blanks)) = before ++ style.opener := by
  rw [← List.append_assoc]
  apply dropTrailingBlank_append_blanks hblanks
  rw [Style.getLast?_append_opener]
  cases style <;> decide

/-- Where the signature stands once, no style but one starts anywhere, and this one starts
in one place. -/
theorem Style.Starts.eq_of_starts
    {style other : Style} {before text payload otherPayload : List Char}
    {keyword otherKeyword : Keyword} {start : Nat}
    (h : style.Starts text keyword payload) (hbefore : ¬ signature <:+: before)
    (hpayload : ¬ signature <:+: payload)
    (hother : other.Starts ((before ++ text).drop start) otherKeyword otherPayload) :
    other = style ∧ start = before.length := by
  obtain ⟨blanks, gap, hblanks, hgap, hne, htext⟩ := h.spelling
  obtain ⟨otherBlanks, otherGap, hotherBlanks, _, _, hdrop⟩ := hother.spelling
  have hsame :
      (before ++ text).take start ++ (other.opener ++ otherBlanks) =
        before ++ (style.opener ++ blanks) := by
    have hline :
        ((before ++ text).take start ++ (other.opener ++ otherBlanks)) ++
            (signature ++ (otherKeyword.text ++ (otherGap ++ otherPayload))) =
          (before ++ (style.opener ++ blanks)) ++
            (signature ++ (keyword.text ++ (gap ++ payload))) := by
      calc
        _ = (before ++ text).take start ++ (before ++ text).drop start := by
          rw [hdrop]
          simp only [List.append_assoc]
        _ = before ++ text := List.take_append_drop _ _
        _ = _ := by
          rw [htext]
          simp only [List.append_assoc]
    have hmarks := not_mem_signature_of_mem_opening style hblanks
    refine eq_of_append_signature (not_signature_infix_append_marks hmarks hbefore) ?_
      (not_signature_infix_tail keyword hgap hne hpayload) hline
    intro c hlast
    rw [List.getLast?_append_of_ne_nil _ (style.opener_append_ne_nil blanks)] at hlast
    exact hmarks c (List.mem_of_getLast? hlast)
  have hcut : (before ++ text).take start ++ other.opener = before ++ style.opener := by
    rw [← other.dropTrailingBlank_opening _ hotherBlanks, hsame,
      style.dropTrailingBlank_opening _ hblanks]
  have hstyle : other = style := by
    have hlast := congrArg List.getLast? hcut
    rw [Style.getLast?_append_opener, Style.getLast?_append_opener] at hlast
    exact Style.mark_injective (Option.some.inj hlast)
  subst hstyle
  have htake : (before ++ text).take start = before := List.append_cancel_right hcut
  have hlength := congrArg List.length htake
  have hpos : 0 < text.length := by
    rw [htext]
    exact List.length_pos_of_ne_nil (other.opener_append_ne_nil _)
  rw [List.length_take, List.length_append] at hlength
  exact ⟨rfl, by omega⟩

/-- So the style prevails in the line, and its directive is the one that starts there. -/
theorem Style.Starts.lineDirective?_eq
    {style : Style} {before text payload rule reason : List Char} {keyword : Keyword}
    (h : style.Starts text keyword payload) (hmeans : style.Says payload rule reason)
    (hbefore : ¬ signature <:+: before) (hpayload : ¬ signature <:+: payload) :
    lineDirective? (before ++ text) = some (before, { keyword, rule, reason }) := by
  have hreads : style.Reads (before ++ text) before.length { keyword, rule, reason } := by
    refine ⟨⟨payload, by rwa [List.drop_left], hmeans⟩, ?_⟩
    rintro earlier hearlier ⟨_, _, hstarts, _⟩
    exact absurd (h.eq_of_starts hbefore hpayload hstarts).2 (Nat.ne_of_lt hearlier)
  have hprevails : style.Prevails (before ++ text) := by
    refine ⟨hreads.occurs, ?_⟩
    rintro other hrank ⟨_, _, _, hstarts, _⟩
    rw [(h.eq_of_starts hbefore hpayload hstarts).1] at hrank
    exact Nat.lt_irrefl _ hrank
  rw [lineDirective?_of_prevails hprevails hreads, List.take_left]

/-! ## The other lines of a content -/

theorem ofLines_append
    (file : String) (number : Nat) (earlier later : List (List Char)) :
    ofLines file number (earlier ++ later) =
      ofLines file number earlier ++ ofLines file (number + earlier.length) later := by
  simp only [ofLines_eq_flatMap, List.zipIdx_append, List.flatMap_append]

theorem ofLines_eq_nil
    (file : String) (number : Nat) {lines : List (List Char)}
    (h : ∀ line ∈ lines, ¬ signature <:+: line) :
    ofLines file number lines = [] := by
  rw [ofLines_eq_flatMap, List.flatMap_eq_nil_iff]
  rintro ⟨line, row⟩ hmem
  have hline : line ∈ lines := List.fst_mem_of_mem_zipIdx hmem
  have hnone : lineDirective? line = none := by
    rw [lineDirective?, List.findSome?_eq_none_iff]
    exact fun style _ => find?_eq_none (h line hline)
  rw [ofLine?, hnone]
  rfl

/-! ## Written directives -/

theorem trim_blank_cons
    (text : List Char) :
    trim (' ' :: text) = trim text :=
  rfl

theorem lineSays_written
    {rule reason : List Char} (hrule : rule.all isSolid = true) (hreason : trim reason = reason) :
    LineSays (rule ++ ' ' :: '-' :: ' ' :: reason) rule reason := by
  have hafter : ReasonAfter ([' '] ++ '-' :: ' ' :: reason) (trim (' ' :: reason)) :=
    .hyphen rfl
  rw [trim_blank_cons, hreason] at hafter
  exact ⟨hrule, _, rfl, rfl, hafter⟩

theorem blockSays_written
    {rule reason : List Char} (after : List Char) (hne : rule ≠ [])
    (hrule : rule.all isSolid = true) (hreason : trim reason = reason)
    (hcloser : ¬ ['*', '/'] <:+: reason) :
    BlockSays (rule ++ ' ' :: '-' :: ' ' :: (reason ++ ' ' :: '*' :: '/' :: after)) rule
      reason := by
  have hclear : ¬ ['*', '/'] <:+: ' ' :: (reason ++ [' ']) := by
    have hfree : ' ' ∉ ['*', '/'] := by decide
    have hnil : ¬ ['*', '/'] <:+: [] := by decide
    exact not_infix_append_cons hfree hnil (not_infix_append_cons hfree hcloser hnil)
  have hafter :
      ReasonBeforeCloser ([' '] ++ '-' :: (' ' :: (reason ++ [' ']) ++ '*' :: '/' :: after))
        (trim (' ' :: (reason ++ [' ']))) :=
    .hyphen rfl hclear
  rw [trim_blank_cons, trim_append_blank, hreason] at hafter
  refine ⟨⟨hne, hrule, _, rfl, by simpa using hafter⟩, ?_⟩
  intro other otherReason hother
  obtain ⟨shorter, hshorter, hlength, _⟩ := hother.exists_closed
  rw [takeWhile_isSolid_append hrule rfl] at hshorter
  omega

/-- A style reads a rule and a reason from what is written for them. -/
theorem Style.says_written
    (style : Style) {rule reason after : List Char} (hne : rule ≠ [])
    (hrule : rule.all isSolid = true) (hreason : trim reason = reason)
    (hcloser : ¬ ['*', '/'] <:+: reason) (hafter : style ≠ .block → after = []) :
    style.Says (rule ++ ' ' :: '-' :: ' ' :: (reason ++ (style.closer ++ after))) rule
      reason := by
  cases style with
  | block => exact blockSays_written after hne hrule hreason hcloser
  | _ =>
      rw [hafter (by decide), Style.closer, List.append_nil, List.append_nil]
      exact lineSays_written hrule hreason

theorem solid_rule_append
    {rule : List Char} (text : List Char) (hne : rule ≠ [])
    (hrule : rule.all isSolid = true) :
    (rule ++ text).head?.any isSolid = true := by
  obtain ⟨c, rest, rfl⟩ := List.exists_cons_of_ne_nil hne
  exact List.all_eq_true.mp hrule c List.mem_cons_self

theorem Style.not_signature_infix_written
    (style : Style) {rule reason after : List Char} (hrule : ¬ signature <:+: rule)
    (hreason : ¬ signature <:+: reason) (hafter : ¬ signature <:+: after)
    (hline : style ≠ .block → after = []) :
    ¬ signature <:+: rule ++ ' ' :: '-' :: ' ' :: (reason ++ (style.closer ++ after)) := by
  have hclosed : ¬ signature <:+: reason ++ (style.closer ++ after) := by
    cases style with
    | block =>
        have hmarks : ∀ c ∈ ['*', '/'], c ∉ signature := forall_not_mem_signature (by decide)
        exact not_infix_append_cons (by decide) hreason
          (not_signature_infix_marks_append hmarks hafter)
    | _ =>
        rw [hline (by decide), Style.closer, List.append_nil, List.append_nil]
        exact hreason
  have hmarks : ∀ c ∈ ['-', ' '], c ∉ signature := forall_not_mem_signature (by decide)
  exact not_infix_append_cons (by decide) hrule
    (not_signature_infix_marks_append hmarks hclosed)

/-- What a directive covers by its keyword, given the text before it on its line. -/
def Keyword.coverage (before : List Char) : Keyword → Coverage
  | .ignoreFile => .file
  | .ignoreNextLine => .nextLine
  | .ignore => if allBlank before then .nextLine else .line

/-- A directive in any style, with a rule without blanks and a trimmed reason, is read back
as it was written, whatever stands before it on its line and after a block comment, as long
as the signature stands nowhere else in the content. -/
theorem written_directive_reads_back
    (file : String) (style : Style) (keyword : Keyword)
    {rule reason before after content : List Char} {earlier later : List (List Char)}
    (hne : rule ≠ []) (hrule : rule.all isSolid = true) (hreason : trim reason = reason)
    (hcloser : ¬ ['*', '/'] <:+: reason) (hafter : style ≠ .block → after = [])
    (hplain : ∀ text ∈ [rule, reason, before, after], ¬ signature <:+: text)
    (hcontent : lines content =
      earlier ++
        (before ++ (style.comment keyword (rule ++ " - ".toList ++ reason) ++ after)) :: later)
    (hothers : ∀ line ∈ earlier ++ later, ¬ signature <:+: line)
    (hwindow : keyword = .ignoreFile → earlier.length + 1 ≤ 10) :
    parse file content =
      [{ rule := String.ofList rule
         reason := String.ofList reason
         file
         line := if keyword = .ignoreFile then 0 else earlier.length + 1
         coverage := keyword.coverage before }] := by
  have hstarts :
      style.Starts (style.comment keyword (rule ++ " - ".toList ++ reason) ++ after) keyword
        (rule ++ ' ' :: '-' :: ' ' :: (reason ++ (style.closer ++ after))) := by
    refine ⟨⟨[' '], [' '], rfl, rfl, by simp, ?_⟩, solid_rule_append _ hne hrule⟩
    simp [Style.comment]
  have hdirective := hstarts.lineDirective?_eq
    (style.says_written hne hrule hreason hcloser hafter) (hplain before (by simp))
    (style.not_signature_infix_written (hplain rule (by simp)) (hplain reason (by simp))
      (hplain after (by simp)) hafter)
  have hearlier : ofLines file 1 earlier = [] :=
    ofLines_eq_nil file 1 fun line hmem => hothers line (List.mem_append_left _ hmem)
  have hlater : ∀ number, ofLines file number later = [] := fun number =>
    ofLines_eq_nil file number fun line hmem => hothers line (List.mem_append_right _ hmem)
  rw [parse, hcontent, ofLines_append, hearlier, ofLines, hlater, List.append_nil,
    List.nil_append, Nat.add_comm 1 earlier.length, ofLine?, hdirective]
  cases keyword with
  | ignoreFile =>
      have hnumber : earlier.length + 1 ≤ fileWindow := hwindow rfl
      simp [coverage?, Keyword.coverage, hnumber]
  | ignoreNextLine => rfl
  | ignore => cases hbefore : allBlank before <;> simp [coverage?, Keyword.coverage, hbefore]

/-- A content whose second line has a directive in a block comment between code and another
comment.  The rule holds a closer, and the reason starts with a hyphen and ends in a star. -/
def writtenContent : List Char :=
  "f()\ng() /* swallowcheck:ignore x-*/y - - by design * */ # h\n".toList

theorem writtenContent_reads_back :
    lines writtenContent =
        ["f()".toList] ++
          ("g() ".toList ++
            (Style.block.comment .ignore
              ("x-*/y".toList ++ " - ".toList ++ "- by design *".toList) ++
              " # h".toList)) :: [] ∧
      parse "a.cpp" writtenContent =
        [⟨"x-*/y", "- by design *", "a.cpp", 2, .line⟩] := by
  have hlines :
      lines writtenContent =
        ["f()".toList] ++
          ("g() ".toList ++
            (Style.block.comment .ignore
              ("x-*/y".toList ++ " - ".toList ++ "- by design *".toList) ++
              " # h".toList)) :: [] := by
    decide +kernel
  have hread := written_directive_reads_back "a.cpp" .block .ignore (by decide) (by decide)
    (by decide +kernel) (by decide) (by decide) (by decide +kernel) hlines (by decide)
    (by decide)
  exact ⟨hlines, hread.trans (by decide)⟩

/-! ## Comments that stand alone -/

/-- An opener with more marks than its style needs. -/
def Style.lengthened (style : Style) (extra : Nat) : List Char :=
  List.replicate extra style.mark ++ style.opener

example : Style.slashes.lengthened 1 = "///".toList := by decide

theorem line_of_mem_ofLines
    {file : String} {number : Nat} {lines : List (List Char)} {suppression : Suppression}
    (h : suppression ∈ ofLines file number lines) :
    suppression.line = 0 ∨
      number ≤ suppression.line ∧ suppression.line < number + lines.length := by
  rw [ofLines_eq_flatMap, List.mem_flatMap] at h
  obtain ⟨⟨line, row⟩, hmem, hsuppression⟩ := h
  obtain ⟨hle, hlt, _⟩ := List.mem_zipIdx hmem
  rw [Option.mem_toList] at hsuppression
  unfold ofLine? at hsuppression
  split at hsuppression
  · cases hsuppression
  · obtain ⟨coverage, _, rfl⟩ := Option.map_eq_some_iff.mp hsuppression
    by_cases hfile : coverage = .file
    · exact Or.inl (if_pos hfile)
    · simp only [if_neg hfile]
      exact Or.inr ⟨hle, hlt⟩

/-- The suppressions that bear the number of a line are those that the line yields. -/
theorem filter_line_parse
    {file : String} {content line : List Char} {earlier later : List (List Char)}
    {suppression : Suppression} (hcontent : lines content = earlier ++ line :: later)
    (h : ofLine? file (earlier.length + 1) line = some suppression)
    (hnumber : suppression.line = earlier.length + 1) :
    (parse file content).filter (·.line = earlier.length + 1) = [suppression] := by
  have hearlier :
      (ofLines file 1 earlier).filter (·.line = earlier.length + 1) = [] := by
    rw [List.filter_eq_nil_iff]
    intro other hother
    have hrange := line_of_mem_ofLines hother
    simp only [decide_eq_true_eq]
    omega
  have hlater :
      (ofLines file (earlier.length + 1 + 1) later).filter (·.line = earlier.length + 1) =
        [] := by
    rw [List.filter_eq_nil_iff]
    intro other hother
    have hrange := line_of_mem_ofLines hother
    simp only [decide_eq_true_eq]
    omega
  rw [parse, hcontent, ofLines_append, ofLines, Nat.add_comm 1 earlier.length, h,
    List.filter_append, List.filter_append, hearlier, hlater]
  simp [hnumber]

theorem ofLine?_lengthened
    (file : String) (number : Nat) (style : Style) (extra : Nat)
    {before blanks payload : List Char} (hstyle : style ≠ .block)
    (hblanks : allBlank blanks = true) (hsolid : payload.head?.any isSolid = true)
    (hbefore : ¬ signature <:+: before) (hpayload : ¬ signature <:+: payload) :
    ofLine? file number
        (before ++ (style.lengthened extra ++
          (blanks ++ (signature ++ ("ignore ".toList ++ payload))))) =
      some
        { rule := String.ofList (linePayload payload).1
          reason := String.ofList (linePayload payload).2
          file
          line := number
          coverage := Keyword.coverage (before ++ List.replicate extra style.mark) .ignore } := by
  have hstarts :
      style.Starts
        (style.opener ++ (blanks ++ (signature ++ ("ignore ".toList ++ payload)))) .ignore
        payload :=
    ⟨⟨blanks, [' '], hblanks, rfl, by simp, rfl⟩, hsolid⟩
  have hmeans : style.Says payload (linePayload payload).1 (linePayload payload).2 := by
    cases style with
    | block => exact absurd rfl hstyle
    | _ => exact linePayload_eq_iff.mp rfl
  have hmark : ∀ c ∈ List.replicate extra style.mark, c ∉ signature := by
    have hnone : style.mark ∉ signature := by cases style <;> decide
    intro c hc
    rwa [List.eq_of_mem_replicate hc]
  have hdirective := hstarts.lineDirective?_eq hmeans
    (not_signature_infix_append_marks hmark hbefore) hpayload
  rw [Style.lengthened, List.append_assoc, ← List.append_assoc before, ofLine?, hdirective]
  simp only [coverage?, Keyword.coverage, Option.map_some]
  split <;> rfl

/-- A comment of slashes or hashes with a plain directive yields one suppression.  It covers
the next line exactly if nothing but blanks stands before the comment and the comment has
no more marks than its style needs; otherwise it covers its own line. -/
theorem ignore_covers_next_line_iff
    (file : String) {style : Style} (hstyle : style ≠ .block) (extra : Nat)
    {before blanks rule rest content : List Char} {earlier later : List (List Char)}
    (hblanks : allBlank blanks = true) (hne : rule ≠ []) (hrule : rule.all isSolid = true)
    (hbefore : ¬ signature <:+: before) (hrest : ¬ signature <:+: rule ++ rest)
    (hcontent : lines content =
      earlier ++
        (before ++ (style.lengthened extra ++
          (blanks ++ (signature ++ ("ignore ".toList ++ (rule ++ rest)))))) :: later) :
    ∃ suppression,
      (parse file content).filter (·.line = earlier.length + 1) = [suppression] ∧
        suppression.rule = String.ofList (rule ++ rest.takeWhile isSolid) ∧
        suppression.file = file ∧
        (suppression.coverage = .nextLine ↔ allBlank before = true ∧ extra = 0) ∧
        (suppression.coverage = .line ↔ ¬ (allBlank before = true ∧ extra = 0)) := by
  have hyield := ofLine?_lengthened file (earlier.length + 1) style extra hstyle hblanks
    (solid_rule_append rest hne hrule) hbefore hrest
  have hblank :
      allBlank (before ++ List.replicate extra style.mark) = true ↔
        allBlank before = true ∧ extra = 0 := by
    have hmark : isBlank style.mark = false := by cases style <;> decide
    simp [allBlank, hmark]
  refine ⟨_, filter_line_parse hcontent hyield rfl, ?_, rfl, ?_, ?_⟩
  · rw [linePayload, List.takeWhile_append_of_pos (List.all_eq_true.mp hrule)]
  · rw [← hblank]
    simp [Keyword.coverage]
  · rw [← hblank]
    simp [Keyword.coverage]

/-- A comment of three slashes that stands alone covers its own line, where one of two
slashes covers the next line. -/
theorem three_slashes_alone_cover_their_line :
    (∃ suppression,
        (parse "a.js" "  // swallowcheck:ignore no-hide - by design\nf()".toList).filter
            (·.line = 1) = [suppression] ∧
          suppression.rule = "no-hide" ∧ suppression.coverage = .nextLine) ∧
      ∃ suppression,
        (parse "a.js" "  /// swallowcheck:ignore no-hide - by design\nf()".toList).filter
            (·.line = 1) = [suppression] ∧
          suppression.rule = "no-hide" ∧ suppression.coverage = .line := by
  have hsignature : ¬ signature <:+: "no-hide".toList ++ " - by design".toList := by
    decide +kernel
  have htwo :
      lines "  // swallowcheck:ignore no-hide - by design\nf()".toList =
        [] ++
          ("  ".toList ++ (Style.slashes.lengthened 0 ++
            (" ".toList ++ (signature ++ ("ignore ".toList ++
              ("no-hide".toList ++ " - by design".toList)))))) :: ["f()".toList] := by
    decide +kernel
  have hthree :
      lines "  /// swallowcheck:ignore no-hide - by design\nf()".toList =
        [] ++
          ("  ".toList ++ (Style.slashes.lengthened 1 ++
            (" ".toList ++ (signature ++ ("ignore ".toList ++
              ("no-hide".toList ++ " - by design".toList)))))) :: ["f()".toList] := by
    decide +kernel
  obtain ⟨short, hshort, hshortRule, _, hnext, _⟩ :=
    ignore_covers_next_line_iff "a.js" (by decide) 0 rfl (by decide) (by decide) (by decide)
      hsignature htwo
  obtain ⟨long, hlong, hlongRule, _, _, hown⟩ :=
    ignore_covers_next_line_iff "a.js" (by decide) 1 rfl (by decide) (by decide) (by decide)
      hsignature hthree
  exact ⟨⟨short, hshort, hshortRule.trans (by decide), hnext.mpr (by decide)⟩,
    long, hlong, hlongRule.trans (by decide), hown.mpr (by decide)⟩

end HandlerLint.Suppression
