import HandlerLint.Proofs.Check.Contribution

/-!
# What a configuration does to a check

A configuration picks the files to look at by their languages and gives every diagnostic
its severity.  It does nothing else: checking with it is checking the picked files with
the configuration that leaves everything out, and then writing the severity on what was
found.

Severities can be written at the end because nothing on the way reads them.  Directives
cover a diagnostic by its file, rule and line, and results are sorted by file, line and
column.
-/

namespace HandlerLint

/-! ## Writing severities -/

/-- A diagnostic with a given severity. -/
def Diagnostic.withSeverity (severity : Severity) (diagnostic : Diagnostic) : Diagnostic :=
  { diagnostic with severity }

/-- A suppressed diagnostic with a given severity. -/
def SuppressedDiagnostic.withSeverity
    (severity : Severity) (entry : SuppressedDiagnostic) : SuppressedDiagnostic :=
  { entry with diagnostic := entry.diagnostic.withSeverity severity }

/-- A result in which every diagnostic, active or suppressed, has a given severity. -/
def CheckResult.withSeverity (severity : Severity) (result : CheckResult) : CheckResult :=
  { result with
    diagnostics := result.diagnostics.map (·.withSeverity severity)
    suppressed := result.suppressed.map (·.withSeverity severity) }

variable (severity : Severity)

@[simp] theorem Suppression.covers_withSeverity
    (suppression : Suppression) (diagnostic : Diagnostic) :
    suppression.covers (diagnostic.withSeverity severity) = suppression.covers diagnostic :=
  rfl

/-- Diagnostics are divided alike whatever their severity. -/
theorem filterSuppressed_map_withSeverity
    (suppressions : List Suppression) (diagnostics : List Diagnostic) :
    filterSuppressed suppressions (diagnostics.map (·.withSeverity severity)) =
      { active :=
          (filterSuppressed suppressions diagnostics).active.map (·.withSeverity severity)
        suppressed :=
          (filterSuppressed suppressions diagnostics).suppressed.map
            (·.withSeverity severity) } := by
  induction diagnostics with
  | nil => rfl
  | cons diagnostic diagnostics ih =>
      rw [List.map_cons, filterSuppressed_cons, filterSuppressed_cons, ih]
      simp only [Suppression.covers_withSeverity]
      cases suppressions.find? (·.covers diagnostic) with
      | some suppression => rfl
      | none => rfl

theorem Rule.run_eq_map_withSeverity
    (tree : SyntaxTree) :
    Rule.run { severity } tree = (Rule.run {} tree).map (·.withSeverity severity) := by
  unfold Rule.run
  rw [List.map_map]
  rfl

namespace CheckResult

/-- Severities may be written before or after sorting, which does not look at them. -/
theorem sort_withSeverity
    (result : CheckResult) :
    (result.withSeverity severity).sort = result.sort.withSeverity severity := by
  have hdiagnostics :
      (result.diagnostics.mergeSort Diagnostic.le).map (·.withSeverity severity) =
        (result.diagnostics.map (·.withSeverity severity)).mergeSort Diagnostic.le := by
    apply List.map_mergeSort
    intro left _ right _
    rfl
  have hsuppressed :
      (result.suppressed.mergeSort suppressedLe).map (·.withSeverity severity) =
        (result.suppressed.map (·.withSeverity severity)).mergeSort suppressedLe := by
    apply List.map_mergeSort
    intro left _ right _
    rfl
  simp only [sort, withSeverity, hdiagnostics, hsuppressed]

theorem merge_withSeverity
    (left right : CheckResult) :
    (left.withSeverity severity).merge (right.withSeverity severity) =
      (left.merge right).withSeverity severity := by
  simp only [merge, withSeverity, List.map_append]

end CheckResult

/-! ## Files -/

namespace Check

theorem diagnosed_map_withSeverity
    (file : String) (bytes : List UInt8) (diagnostics : List Diagnostic) :
    diagnosed file bytes (diagnostics.map (·.withSeverity severity)) =
      (diagnosed file bytes diagnostics).withSeverity severity := by
  rw [diagnosed_eq, diagnosed_eq, filterSuppressed_map_withSeverity]
  rfl

namespace Setup

variable (setup : Setup)

/-- Whether a file is in a language that the configuration enables. -/
def picks (file : String) : Bool :=
  (Language.ofPath? file).any (setup.config.enables ·.id)

/-- The setup with the configuration that leaves everything out. -/
def withDefaults : Setup :=
  { setup with config := .empty }

/-- The configuration that leaves everything out enables every language. -/
theorem language?_withDefaults
    {language : Language} {file : String} (h : setup.language? file = some language) :
    setup.withDefaults.language? file = some language := by
  obtain ⟨hlanguage, _⟩ := Option.filter_eq_some_iff.mp h
  exact Option.filter_eq_some_iff.mpr ⟨hlanguage, rfl⟩

theorem fails_withDefaults
    {file error : String} (h : setup.Fails file error) :
    setup.withDefaults.Fails file error := by
  cases h with
  | unreadable hlanguage hread =>
      exact .unreadable (setup.language?_withDefaults hlanguage) hread
  | unlowerable hlanguage hread hlower =>
      exact .unlowerable (setup.language?_withDefaults hlanguage) hread hlower

theorem lowers_withDefaults
    {file : String} {bytes : List UInt8} {tree : SyntaxTree} (h : setup.Lowers file bytes tree) :
    setup.withDefaults.Lowers file bytes tree := by
  obtain ⟨language, hlanguage, hread, hlower⟩ := h
  exact ⟨language, setup.language?_withDefaults hlanguage, hread, hlower⟩

/-- A picked file is checked as by default, and its diagnostics get the severity. -/
theorem checkFile_of_picks
    {file : String} (h : setup.picks file = true) :
    setup.checkFile file =
      (setup.withDefaults.checkFile file).withSeverity setup.config.severity := by
  rcases setup.checkFile_cases file with ⟨hnone, _⟩ | ⟨error, hfails⟩ | ⟨bytes, tree, hlowers⟩
  · rw [picks, language?_eq_none_iff.mp hnone] at h
    cases h
  · rw [checkFile_of_fails hfails, checkFile_of_fails (setup.fails_withDefaults hfails)]
    rfl
  · rw [checkFile_of_lowers hlowers, checkFile_of_lowers (setup.lowers_withDefaults hlowers),
      ← diagnosed_map_withSeverity]
    exact congrArg (diagnosed file bytes) (Rule.run_eq_map_withSeverity _ tree)

theorem checkFile_of_not_picks
    {file : String} (h : ¬setup.picks file = true) :
    setup.checkFile file = .empty := by
  have hnone : setup.language? file = none :=
    language?_eq_none_iff.mpr (Bool.eq_false_iff.mpr h)
  unfold checkFile
  rw [hnone]

/-- The files that are not picked contribute nothing. -/
theorem concat_map_checkFile
    (files : List String) :
    CheckResult.concat (files.map setup.checkFile) =
      (CheckResult.concat
        ((files.filter setup.picks).map setup.withDefaults.checkFile)).withSeverity
          setup.config.severity := by
  induction files with
  | nil => rfl
  | cons file files ih =>
      rw [List.map_cons, CheckResult.concat_cons, ih, List.filter_cons]
      split
      · next hpicks =>
          rw [setup.checkFile_of_picks hpicks, List.map_cons, CheckResult.concat_cons,
            CheckResult.merge_withSeverity]
      · next hskips => rw [setup.checkFile_of_not_picks hskips, CheckResult.empty_merge]

/-- A check with a configuration is a check of the files in an enabled language with the
configuration that leaves everything out, but for the severity of all diagnostics, which
is that of the configuration.  Its version, its threshold, its excluded paths and whether
it includes tests change nothing. -/
theorem check_eq_withSeverity_check_picked
    (setup : Setup) (files : List String) :
    setup.check files =
        (check { setup with config := .empty }
          (files.filter fun file =>
            (Language.ofPath? file).any (setup.config.enables ·.id))).withSeverity
              setup.config.severity ∧
      ∀ (version : String) (failOn? : Option Severity) (includeTestFiles? : Option Bool)
        (excludedPaths : List String),
        check
          { setup with
            config :=
              { setup.config with version, failOn?, includeTestFiles?, excludedPaths } }
          files = setup.check files := by
  have hpicked :
      ∀ setup : Setup,
        setup.check files =
          (setup.withDefaults.check (files.filter setup.picks)).withSeverity
            setup.config.severity := by
    intro setup
    rw [check_eq_sort_concat, check_eq_sort_concat, concat_map_checkFile,
      CheckResult.sort_withSeverity]
  refine ⟨hpicked setup, ?_⟩
  intro version failOn? includeTestFiles? excludedPaths
  -- Neither the picked files nor the severity depend on any of the four.
  rw [hpicked setup]
  exact hpicked _

end Setup

end Check

end HandlerLint
