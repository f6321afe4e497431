import HandlerLint.Proofs.Check.Schedule
import HandlerLint.Proofs.Search.Origin
import HandlerLint.Proofs.Text.Lines

/-!
# Directives and the rows of handlers

A parser counts the rows of a source in its bytes, one row per line feed.  Directives are
looked for in the text of the source, line by line.  As lines of bytes and lines of text
agree, a handler on a row is kept quiet by the directives that are meant for its line.
-/

namespace HandlerLint

open HandlerLint.Text
open HandlerLint.Suppression (Keyword Directive lineDirective?)

/-- Whether a suppression on one row is meant for another: for every row, for the same one or
for the next one. -/
def Coverage.Meets (index row : Nat) : Coverage → Prop
  | .file => True
  | .line => index = row
  | .nextLine => index + 1 = row

namespace Suppression

/-! ## Numbered lines -/

theorem mem_ofLines_iff
    {file : String} {number : Nat} {lines : List (List Char)} {suppression : Suppression} :
    suppression ∈ ofLines file number lines ↔
      ∃ row line, lines[row]? = some line ∧
        ofLine? file (number + row) line = some suppression := by
  induction lines generalizing number with
  | nil => simp [ofLines]
  | cons first lines ih =>
      rw [ofLines, List.mem_append, Option.mem_toList, ih]
      constructor
      · rintro (hfirst | ⟨row, line, hline, hlater⟩)
        · exact ⟨0, first, rfl, hfirst⟩
        · refine ⟨row + 1, line, hline, ?_⟩
          rwa [Nat.add_comm row 1, ← Nat.add_assoc]
      · rintro ⟨row, line, hline, hsuppression⟩
        cases row with
        | zero =>
            cases hline
            exact Or.inl hsuppression
        | succ row =>
            refine Or.inr ⟨row, line, hline, ?_⟩
            rwa [Nat.add_assoc, Nat.add_comm 1 row]

/-- The suppressions of a source come from its lines, numbered by the line feeds ahead of
them. -/
theorem mem_parse_iff
    {file : String} {bytes : List UInt8} {suppression : Suppression} :
    suppression ∈ parse file (decodeLossy bytes) ↔
      ∃ row line, IsLine bytes row line ∧
        ofLine? file (row + 1) (decodeLossy line) = some suppression := by
  unfold parse
  rw [lines_decodeLossy, mem_ofLines_iff]
  constructor
  · rintro ⟨row, text, htext, hsuppression⟩
    rw [List.getElem?_map, Option.map_eq_some_iff] at htext
    obtain ⟨line, hline, rfl⟩ := htext
    rw [Nat.add_comm] at hsuppression
    exact ⟨row, line, getElem?_sourceLines_iff.mp hline, hsuppression⟩
  · rintro ⟨row, line, hline, hsuppression⟩
    refine ⟨row, decodeLossy line, ?_, ?_⟩
    · rw [List.getElem?_map, getElem?_sourceLines_iff.mpr hline]
      rfl
    · rwa [Nat.add_comm]

/-! ## What a directive reaches -/

/-- From a row of a file, below some text on its own line, a directive reaches the handlers
on another row.  One for the whole file is heard on the first ten lines.  A plain one
reaches its own row, and the next row if there is nothing ahead of it. -/
inductive Reaches (before : List Char) (index row : Nat) : Keyword → Prop
  | file : index < 10 → Reaches before index row .ignoreFile
  | ownLine : allBlank before = false → index = row → Reaches before index row .ignore
  | alone : allBlank before = true → index + 1 = row → Reaches before index row .ignore
  | nextLine : index + 1 = row → Reaches before index row .ignoreNextLine

/-- Some line of a source has a directive that is meant for a rule, or for every rule, and
that reaches a row. -/
def Quieted (bytes : List UInt8) (ruleId : String) (row : Nat) : Prop :=
  ∃ index line before directive,
    IsLine bytes index line ∧ lineDirective? (decodeLossy line) = some (before, directive) ∧
      (String.ofList directive.rule = "*" ∨ String.ofList directive.rule = ruleId) ∧
      Reaches before index row directive.keyword

/-- A directive reaches the rows that its coverage meets. -/
theorem reaches_iff
    {before : List Char} {index row : Nat} {directive : Directive} :
    Reaches before index row directive.keyword ↔
      ∃ coverage, coverage? (index + 1) before directive = some coverage ∧
        coverage.Meets index row := by
  obtain ⟨keyword, rule, reason⟩ := directive
  constructor
  · intro h
    cases h with
    | file hindex => exact ⟨.file, if_pos hindex, trivial⟩
    | ownLine hbefore hrow => exact ⟨.line, by simp [coverage?, hbefore], hrow⟩
    | alone hbefore hrow => exact ⟨.nextLine, by simp [coverage?, hbefore], hrow⟩
    | nextLine hrow => exact ⟨.nextLine, rfl, hrow⟩
  · rintro ⟨coverage, hcoverage, hmeets⟩
    cases keyword with
    | ignoreFile =>
        by_cases hindex : index + 1 ≤ fileWindow
        · exact .file hindex
        · simp [coverage?, hindex] at hcoverage
    | ignoreNextLine =>
        cases hcoverage
        exact .nextLine hmeets
    | ignore =>
        cases hbefore : allBlank before with
        | true =>
            simp only [coverage?, hbefore, if_true] at hcoverage
            cases hcoverage
            exact .alone hbefore hmeets
        | false =>
            simp only [coverage?, hbefore] at hcoverage
            cases hcoverage
            exact .ownLine hbefore hmeets

theorem covers_iff
    {suppression : Suppression} {diagnostic : Diagnostic} {index row : Nat}
    (hfile : diagnostic.file = suppression.file) (hrow : diagnostic.line = row + 1)
    (hline : suppression.coverage ≠ .file → suppression.line = index + 1) :
    suppression.covers diagnostic = true ↔
      (suppression.rule = "*" ∨ suppression.rule = diagnostic.ruleId) ∧
        suppression.coverage.Meets index row := by
  unfold covers
  rw [Bool.and_eq_true, Bool.and_eq_true, Bool.or_eq_true, beq_iff_eq, beq_iff_eq, beq_iff_eq]
  simp only [hfile, true_and]
  refine and_congr_right fun _ => ?_
  cases hcoverage : suppression.coverage with
  | file => simp [Coverage.Meets]
  | line =>
      have hnumber : suppression.line = index + 1 := hline (by simp [hcoverage])
      simp only [Coverage.Meets, hrow, hnumber, beq_iff_eq]
      omega
  | nextLine =>
      have hnumber : suppression.line = index + 1 := hline (by simp [hcoverage])
      simp only [Coverage.Meets, hrow, hnumber, beq_iff_eq]
      omega

/-- What the directive of a line covers, in rows. -/
theorem exists_covers_iff
    {file : String} {index row : Nat} {line : List Char} {diagnostic : Diagnostic}
    (hfile : diagnostic.file = file) (hrow : diagnostic.line = row + 1) :
    (∃ suppression, ofLine? file (index + 1) line = some suppression ∧
        suppression.covers diagnostic = true) ↔
      ∃ before directive, lineDirective? line = some (before, directive) ∧
        (String.ofList directive.rule = "*" ∨
          String.ofList directive.rule = diagnostic.ruleId) ∧
        Reaches before index row directive.keyword := by
  unfold ofLine?
  cases lineDirective? line with
  | none => simp
  | some found =>
      obtain ⟨before, directive⟩ := found
      simp only [reaches_iff, Option.map_eq_some_iff]
      constructor
      · rintro ⟨_, ⟨coverage, hcoverage, rfl⟩, hcovers⟩
        obtain ⟨hrule, hmeets⟩ := (covers_iff hfile hrow fun h => if_neg h).mp hcovers
        exact ⟨before, directive, rfl, hrule, coverage, hcoverage, hmeets⟩
      · rintro ⟨_, _, hfound, hrule, coverage, hcoverage, hmeets⟩
        cases hfound
        exact ⟨_, ⟨coverage, hcoverage, rfl⟩,
          (covers_iff hfile hrow fun h => if_neg h).mpr ⟨hrule, hmeets⟩⟩

/-- The directives of a source keep a diagnostic quiet exactly if one of them reaches its
row. -/
theorem isQuieted_iff_quieted
    {file : String} {bytes : List UInt8} {row : Nat} {diagnostic : Diagnostic}
    (hfile : diagnostic.file = file) (hrow : diagnostic.line = row + 1) :
    isQuieted (parse file (decodeLossy bytes)) diagnostic = true ↔
      Quieted bytes diagnostic.ruleId row := by
  rw [isQuieted_iff]
  constructor
  · rintro ⟨suppression, hmem, hcovers⟩
    obtain ⟨index, line, hline, hsuppression⟩ := mem_parse_iff.mp hmem
    obtain ⟨before, directive, hdirective⟩ :=
      (exists_covers_iff hfile hrow).mp ⟨suppression, hsuppression, hcovers⟩
    exact ⟨index, line, before, directive, hline, hdirective⟩
  · rintro ⟨index, line, before, directive, hline, hdirective⟩
    obtain ⟨suppression, hsuppression, hcovers⟩ :=
      (exists_covers_iff hfile hrow).mpr ⟨before, directive, hdirective⟩
    exact ⟨suppression, mem_parse_iff.mpr ⟨index, line, hline, hsuppression⟩, hcovers⟩

end Suppression

/-! ## Handlers on their rows -/

namespace Check

open HandlerLint.Lowering (lower)
open HandlerLint.Files
open HandlerLint.Search

/-- The line feeds ahead of a node. -/
def rowOf (bytes : List UInt8) (node : Source.Node) : Nat :=
  (bytes.take node.label.startByte).count 0x0A

/-- The parse tree of a source gives each handler that the search passes the row that it
starts on, counted in line feeds. -/
def RowsCounted (language : Language) (bytes : List UInt8) (root : Source.Node) : Prop :=
  ∀ handler, VisitedHandler language (rootSites language root) handler →
    handler.node.label.startRow = rowOf bytes handler.node

instance (language : Language) (bytes : List UInt8) (root : Source.Node) :
    Decidable (RowsCounted language bytes root) :=
  decidable_of_iff
    (∀ stop ∈ tour language (rootSites language root), ∀ attempt ∈ stop.attempt?,
      ∀ handler ∈ attempt.childrenAs language .handler,
        handler.node.label.startRow = rowOf bytes handler.node)
    ((forall_visited_attempt_iff _).trans
      ⟨fun h handler ⟨attempt, hvisited, hrole, hmem⟩ =>
          h attempt hvisited hrole handler hmem,
        fun h attempt hvisited hrole handler hmem =>
          h handler ⟨attempt, hvisited, hrole, hmem⟩⟩)

namespace Setup

/-- The lines in which directives are looked for are the lines of the source, numbered by
the line feeds ahead of them.  So a handler, whose row is counted in line feeds, is
suppressed exactly if a directive for its rule, or for every rule, reaches its row: one for
the whole file on the first ten lines, one on its own line, or one for the next line on
the line ahead of it. -/
theorem checkFile_suppresses_by_row
    (bytes : List UInt8) :
    lines (decodeLossy bytes) = (sourceLines bytes).map decodeLossy ∧
      (∀ row line, (sourceLines bytes)[row]? = some line ↔ IsLine bytes row line) ∧
      (∀ file suppression, suppression ∈ Suppression.parse file (decodeLossy bytes) ↔
        ∃ row line, IsLine bytes row line ∧
          Suppression.ofLine? file (row + 1) (decodeLossy line) = some suppression) ∧
      ∀ (setup : Setup) (file : String) (language : Language) (model : SyntaxTree),
        setup.language? file = some language →
        setup.workspace.read file = .ok bytes →
        lower language file bytes (setup.parser language bytes) = .ok model →
        RowsCounted language bytes (setup.parser language bytes).root →
        ∀ diagnostic ∈ setup.rule.run model,
          (∃ handler,
            VisitedHandler language
                (rootSites language (setup.parser language bytes).root) handler ∧
              diagnostic.location.span = handler.node.span) ∧
          ∀ handler,
            VisitedHandler language
                (rootSites language (setup.parser language bytes).root) handler →
            diagnostic.location.span = handler.node.span →
              (diagnostic ∈ (setup.checkFile file).suppressed.map (·.diagnostic) ↔
                  Suppression.Quieted bytes diagnostic.ruleId (rowOf bytes handler.node)) ∧
                (diagnostic ∈ (setup.checkFile file).diagnostics ↔
                  ¬ Suppression.Quieted bytes diagnostic.ruleId
                    (rowOf bytes handler.node)) := by
  refine ⟨lines_decodeLossy bytes, fun row line => getElem?_sourceLines_iff,
    fun file suppression => Suppression.mem_parse_iff, ?_⟩
  intro setup file language model hlanguage hread hlower hrows diagnostic hmem
  have hlowers : setup.Lowers file bytes model := ⟨language, hlanguage, hread, hlower⟩
  refine ⟨Search.exists_handler_of_mem_run hlower hmem, ?_⟩
  intro handler hhandler hspan
  have hrow : diagnostic.line = rowOf bytes handler.node + 1 := by
    rw [← hrows handler hhandler, Diagnostic.line, hspan]
    rfl
  have hquieted :
      isQuieted (ownSuppressions file bytes) diagnostic = true ↔
        Suppression.Quieted bytes diagnostic.ruleId (rowOf bytes handler.node) :=
    Suppression.isQuieted_iff_quieted (file_of_mem_run hlowers hmem) hrow
  rw [checkFile_of_lowers hlowers, diagnosed_eq]
  simp only [map_diagnostic_filterSuppressed, active_filterSuppressed, List.mem_filter]
  constructor
  · rw [hquieted, and_iff_right hmem]
  · rw [Bool.not_eq_true_eq_eq_false, ← Bool.not_eq_true, hquieted, and_iff_right hmem]

/-! ## The sample -/

theorem sampleSetup_read :
    sampleSetup.workspace.read "a.js" = .ok sampleSource := by
  have hsegments : segments "a.js" = ["a.js"] := by decide +kernel
  have habsolute : isAbsolute "a.js" = false := by decide +kernel
  have hfile : sampleSetup.workspace.files.get? ["a.js"] = some (.file sampleSource) := by
    decide +kernel
  have hbase : sampleSetup.workspace.base = [] := rfl
  unfold Workspace.read Workspace.resolve Workspace.target
  rw [if_neg (by decide), hsegments, habsolute, hbase, FileSystem.follow]
  simp [hfile, FileSystem.follow]
  rfl

/-- The directive on the second line suppresses the handler on the third one, although a
broken character and a carriage return stand ahead of it. -/
theorem sampleSetup_suppresses_by_row :
    sampleSetup.language? "a.js" = some .javascript ∧
      sampleSetup.workspace.read "a.js" = .ok sampleSource ∧
      RowsCounted .javascript sampleSource sampleTree.root ∧
      ∃ model, lower .javascript "a.js" sampleSource sampleTree = .ok model ∧
        ∃ diagnostic ∈ sampleSetup.rule.run model, diagnostic.line = 3 ∧
          diagnostic ∈ (sampleSetup.checkFile "a.js").suppressed.map (·.diagnostic) := by
  have hrows : RowsCounted .javascript sampleSource sampleTree.root := by decide +kernel
  have hlanguage : sampleSetup.language? "a.js" = some .javascript := by decide +kernel
  have hreports :
      ((lower .javascript "a.js" sampleSource sampleTree).toOption.map fun model =>
        (sampleSetup.rule.run model).map Diagnostic.line) = some [3, 4] := by
    decide +kernel
  have hline :
      IsLine sampleSource 1 (encode "// swallowcheck:ignore-next-line *") :=
    getElem?_sourceLines_iff.mp (by decide +kernel)
  have hdirective :
      lineDirective? (decodeLossy (encode "// swallowcheck:ignore-next-line *")) =
        some ([], { keyword := .ignoreNextLine, rule := ['*'], reason := [] }) := by
    decide +kernel
  cases hmodel : lower .javascript "a.js" sampleSource sampleTree with
  | error error =>
      rw [hmodel] at hreports
      cases hreports
  | ok model =>
      rw [hmodel] at hreports
      have hlines : (sampleSetup.rule.run model).map Diagnostic.line = [3, 4] :=
        Option.some.inj hreports
      obtain ⟨diagnostic, hmem, hthird⟩ := List.mem_map.mp (hlines ▸ List.mem_cons_self)
      obtain ⟨_, _, _, hsuppressed⟩ := checkFile_suppresses_by_row sampleSource
      obtain ⟨⟨handler, hhandler, hspan⟩, hreached⟩ :=
        hsuppressed sampleSetup "a.js" .javascript model hlanguage sampleSetup_read hmodel
          hrows diagnostic hmem
      have hrow : rowOf sampleSource handler.node = 2 := by
        rw [Diagnostic.line, hspan] at hthird
        rw [← hrows handler hhandler]
        exact Nat.succ.inj hthird
      refine ⟨hlanguage, sampleSetup_read, hrows, model, rfl, diagnostic, hmem, hthird, ?_⟩
      refine (hreached handler hhandler hspan).1.mpr ?_
      refine ⟨1, _, [], _, hline, hdirective, Or.inl rfl, ?_⟩
      rw [hrow]
      exact .nextLine rfl

end Setup

end Check

end HandlerLint
