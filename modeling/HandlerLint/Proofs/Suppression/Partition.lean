import HandlerLint.Suppression.Basic

/-!
# Dividing diagnostics

The diagnostics of a file are divided by the suppressions that cover them.  Each one goes
to exactly one side, both sides keep the order, and a suppressed diagnostic comes with the
first suppression that covers it.

The side of a diagnostic depends on the set of the suppressions only.  More suppressions at
the end of the list move active diagnostics to the other side; they change nothing about
those that are suppressed already.
-/

namespace HandlerLint

variable {suppressions : List Suppression}

/-- Whether one of some suppressions covers a diagnostic. -/
def isQuieted (suppressions : List Suppression) (diagnostic : Diagnostic) : Bool :=
  suppressions.any (·.covers diagnostic)

theorem isQuieted_iff
    {diagnostic : Diagnostic} :
    isQuieted suppressions diagnostic = true ↔
      ∃ suppression ∈ suppressions, suppression.covers diagnostic = true :=
  List.any_eq_true

/-- A diagnostic goes to the side that its cover decides. -/
theorem filterSuppressed_cons
    (diagnostic : Diagnostic) (diagnostics : List Diagnostic) :
    filterSuppressed suppressions (diagnostic :: diagnostics) =
      let rest := filterSuppressed suppressions diagnostics
      match suppressions.find? (·.covers diagnostic) with
      | some suppression =>
          { rest with suppressed := { diagnostic, suppression } :: rest.suppressed }
      | none => { rest with active := diagnostic :: rest.active } :=
  rfl

theorem isQuieted_eq_isSome_find?
    (diagnostic : Diagnostic) :
    isQuieted suppressions diagnostic =
      (suppressions.find? (·.covers diagnostic)).isSome :=
  List.isSome_find?.symm

/-- The active diagnostics are those that nothing covers. -/
theorem active_filterSuppressed
    (diagnostics : List Diagnostic) :
    (filterSuppressed suppressions diagnostics).active =
      diagnostics.filter fun diagnostic => ! isQuieted suppressions diagnostic := by
  induction diagnostics with
  | nil => rfl
  | cons diagnostic diagnostics ih =>
      rw [filterSuppressed_cons, List.filter_cons, isQuieted_eq_isSome_find?]
      cases suppressions.find? (·.covers diagnostic) with
      | some suppression => exact ih
      | none => exact congrArg (diagnostic :: ·) ih

/-- The suppressed diagnostics are those that something covers. -/
theorem map_diagnostic_filterSuppressed
    (diagnostics : List Diagnostic) :
    (filterSuppressed suppressions diagnostics).suppressed.map (·.diagnostic) =
      diagnostics.filter (isQuieted suppressions) := by
  induction diagnostics with
  | nil => rfl
  | cons diagnostic diagnostics ih =>
      rw [filterSuppressed_cons, List.filter_cons, isQuieted_eq_isSome_find?]
      cases suppressions.find? (·.covers diagnostic) with
      | some suppression => exact congrArg (diagnostic :: ·) ih
      | none => exact ih

/-- No diagnostic is lost, and none is doubled. -/
theorem perm_filterSuppressed
    (diagnostics : List Diagnostic) :
    ((filterSuppressed suppressions diagnostics).active ++
      (filterSuppressed suppressions diagnostics).suppressed.map (·.diagnostic)).Perm
      diagnostics := by
  rw [active_filterSuppressed, map_diagnostic_filterSuppressed]
  exact List.perm_append_comm.trans (List.filter_append_perm _ diagnostics)

/-- A suppressed diagnostic comes with the first suppression that covers it. -/
theorem find?_of_mem_suppressed
    {diagnostics : List Diagnostic} {entry : SuppressedDiagnostic}
    (h : entry ∈ (filterSuppressed suppressions diagnostics).suppressed) :
    suppressions.find? (·.covers entry.diagnostic) = some entry.suppression := by
  induction diagnostics with
  | nil => cases h
  | cons diagnostic diagnostics ih =>
      rw [filterSuppressed_cons] at h
      cases hfind : suppressions.find? (·.covers diagnostic) with
      | some suppression =>
          rw [hfind] at h
          rcases List.mem_cons.mp h with rfl | hrest
          · exact hfind
          · exact ih hrest
      | none =>
          rw [hfind] at h
          exact ih h

/-! ## Other lists of suppressions -/

theorem isQuieted_congr
    {others : List Suppression}
    (h : ∀ suppression, suppression ∈ others ↔ suppression ∈ suppressions)
    (diagnostic : Diagnostic) :
    isQuieted others diagnostic = isQuieted suppressions diagnostic := by
  rw [Bool.eq_iff_iff, isQuieted_iff, isQuieted_iff]
  simp only [h]

theorem isQuieted_append
    (more : List Suppression) (diagnostic : Diagnostic) :
    isQuieted (suppressions ++ more) diagnostic =
      (isQuieted suppressions diagnostic || isQuieted more diagnostic) :=
  List.any_append

/-- With more suppressions, the active diagnostics are those that these do not cover. -/
theorem active_filterSuppressed_append
    (more : List Suppression) (diagnostics : List Diagnostic) :
    (filterSuppressed (suppressions ++ more) diagnostics).active =
      (filterSuppressed suppressions diagnostics).active.filter fun diagnostic =>
        ! isQuieted more diagnostic := by
  simp only [active_filterSuppressed, List.filter_filter, isQuieted_append, Bool.not_or,
    Bool.and_comm]

/-- With more suppressions, what was suppressed stays so, by the same suppression. -/
theorem suppressed_filterSuppressed_append
    (more : List Suppression) (diagnostics : List Diagnostic) :
    ((filterSuppressed (suppressions ++ more) diagnostics).suppressed.filter fun entry =>
        isQuieted suppressions entry.diagnostic) =
      (filterSuppressed suppressions diagnostics).suppressed := by
  induction diagnostics with
  | nil => rfl
  | cons diagnostic diagnostics ih =>
      have hquieted := @isQuieted_eq_isSome_find? suppressions diagnostic
      rw [filterSuppressed_cons, filterSuppressed_cons, List.find?_append]
      cases hfirst : suppressions.find? (·.covers diagnostic) with
      | some suppression =>
          rw [hfirst] at hquieted
          simp only [Option.some_or, List.filter_cons, hquieted, Option.isSome_some, if_true,
            ih]
      | none =>
          rw [hfirst] at hquieted
          cases more.find? (·.covers diagnostic) with
          | some suppression =>
              simp only [Option.none_or, List.filter_cons, hquieted, Option.isSome_none,
                Bool.false_eq_true, if_false, ih]
          | none => exact ih

/-- With more suppressions, what becomes suppressed was active before. -/
theorem map_diagnostic_filterSuppressed_append
    (more : List Suppression) (diagnostics : List Diagnostic) :
    (((filterSuppressed (suppressions ++ more) diagnostics).suppressed.map
          (·.diagnostic)).filter fun diagnostic => ! isQuieted suppressions diagnostic) =
      (filterSuppressed suppressions diagnostics).active.filter (isQuieted more) := by
  rw [map_diagnostic_filterSuppressed, active_filterSuppressed, List.filter_filter,
    List.filter_filter]
  refine List.filter_congr fun diagnostic _ => ?_
  rw [isQuieted_append]
  cases isQuieted suppressions diagnostic <;> simp

/-- The active diagnostics are those that no suppression covers and the suppressed ones are
the others, each with the first suppression that covers it; both keep the order.  The same
set of suppressions divides the diagnostics alike.  More suppressions move active
diagnostics to the other side and leave the suppressed ones with their suppressions. -/
theorem filterSuppressed_divides
    (suppressions : List Suppression) (diagnostics : List Diagnostic) :
    (∀ diagnostic, isQuieted suppressions diagnostic = true ↔
        ∃ suppression ∈ suppressions, suppression.covers diagnostic = true) ∧
      (filterSuppressed suppressions diagnostics).active =
        diagnostics.filter (fun diagnostic => ! isQuieted suppressions diagnostic) ∧
      (filterSuppressed suppressions diagnostics).suppressed.map (·.diagnostic) =
        diagnostics.filter (isQuieted suppressions) ∧
      (∀ entry ∈ (filterSuppressed suppressions diagnostics).suppressed,
        ∃ before after, suppressions = before ++ entry.suppression :: after ∧
          entry.suppression.covers entry.diagnostic = true ∧
          ∀ other ∈ before, other.covers entry.diagnostic = false) ∧
      (∀ others : List Suppression,
        (∀ suppression, suppression ∈ others ↔ suppression ∈ suppressions) →
          (filterSuppressed others diagnostics).active =
              (filterSuppressed suppressions diagnostics).active ∧
            (filterSuppressed others diagnostics).suppressed.map (·.diagnostic) =
              (filterSuppressed suppressions diagnostics).suppressed.map (·.diagnostic)) ∧
      ∀ more : List Suppression,
        (filterSuppressed (suppressions ++ more) diagnostics).active =
            (filterSuppressed suppressions diagnostics).active.filter
              (fun diagnostic => ! isQuieted more diagnostic) ∧
          ((filterSuppressed (suppressions ++ more) diagnostics).suppressed.filter
              fun entry => isQuieted suppressions entry.diagnostic) =
            (filterSuppressed suppressions diagnostics).suppressed ∧
          (((filterSuppressed (suppressions ++ more) diagnostics).suppressed.map
              (·.diagnostic)).filter fun diagnostic => ! isQuieted suppressions diagnostic) =
            (filterSuppressed suppressions diagnostics).active.filter (isQuieted more) := by
  refine ⟨fun diagnostic => isQuieted_iff, active_filterSuppressed diagnostics,
    map_diagnostic_filterSuppressed diagnostics, ?_, ?_, ?_⟩
  · intro entry hentry
    obtain ⟨hcovers, before, after, hsplit, hbefore⟩ :=
      List.find?_eq_some_iff_append.mp (find?_of_mem_suppressed hentry)
    refine ⟨before, after, hsplit, hcovers, fun other hother => ?_⟩
    simpa using hbefore other hother
  · intro others hsame
    simp only [active_filterSuppressed, map_diagnostic_filterSuppressed]
    constructor
    · exact List.filter_congr fun diagnostic _ => by rw [isQuieted_congr hsame]
    · exact List.filter_congr fun diagnostic _ => isQuieted_congr hsame diagnostic
  · intro more
    exact ⟨active_filterSuppressed_append more diagnostics,
      suppressed_filterSuppressed_append more diagnostics,
      map_diagnostic_filterSuppressed_append more diagnostics⟩

/-- A diagnostic on a line of a file. -/
def handlerReport (line : Nat) : Diagnostic :=
  { ruleId
    message := ruleMessage
    correction := ruleCorrection
    severity := .warning
    location :=
      { file := "a.py"
        span :=
          { startByte := 0, endByte := 10, startLine := line, startCol := 7,
            endLine := line + 1, endCol := 2 } } }

def nextLineSuppression : Suppression :=
  { rule := ruleId, reason := "expected", file := "a.py", line := 2, coverage := .nextLine }

def wildcardSuppression : Suppression :=
  { rule := "*", reason := "", file := "a.py", line := 9, coverage := .line }

/-- Suppressions that come in another order and more than once leave the same diagnostic
active. -/
theorem reordered_suppressions_divide_alike :
    (∀ suppression,
        suppression ∈ [wildcardSuppression, nextLineSuppression, wildcardSuppression] ↔
          suppression ∈ [nextLineSuppression, wildcardSuppression]) ∧
      (filterSuppressed [nextLineSuppression, wildcardSuppression]
          ([3, 5, 9].map handlerReport)).active = [handlerReport 5] ∧
      (filterSuppressed [wildcardSuppression, nextLineSuppression, wildcardSuppression]
          ([3, 5, 9].map handlerReport)).active = [handlerReport 5] := by
  have hsame : ∀ suppression,
      suppression ∈ [wildcardSuppression, nextLineSuppression, wildcardSuppression] ↔
        suppression ∈ [nextLineSuppression, wildcardSuppression] := by
    intro suppression
    simp only [List.mem_cons, List.not_mem_nil, or_false]
    constructor
    · rintro (h | h | h)
      · exact Or.inr h
      · exact Or.inl h
      · exact Or.inr h
    · rintro (h | h)
      · exact Or.inr (Or.inl h)
      · exact Or.inl h
  have hactive :
      (filterSuppressed [nextLineSuppression, wildcardSuppression]
        ([3, 5, 9].map handlerReport)).active = [handlerReport 5] := by
    decide
  obtain ⟨_, _, _, _, hothers, _⟩ :=
    filterSuppressed_divides [nextLineSuppression, wildcardSuppression]
      ([3, 5, 9].map handlerReport)
  exact ⟨hsame, hactive, (hothers _ hsame).1.trans hactive⟩

end HandlerLint
