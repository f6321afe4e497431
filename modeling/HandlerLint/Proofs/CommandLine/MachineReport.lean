import HandlerLint.Proofs.CommandLine.ExitCode
import HandlerLint.Proofs.Report.Interchange

/-!
# Reports for machines

A report that is read by a program is one JSON document and a line feed.  A run that has a
file to check writes one, however the check of its files goes; a run that is given up writes
none.  Between the two stands the run that has nothing to check, as in a directory without
sources or with all of them excluded.  It warns and succeeds, and writes no document in any
format.
-/

namespace HandlerLint.CommandLine

open HandlerLint.Files

/-- A text is one JSON document with a line feed after it. -/
def IsDocument (text : String) (json : Json) : Prop :=
  ∃ document, text = document ++ "\n" ∧ Json.parse? document = some json

/-- What a format for machines says of a result. -/
def Format.json?
    (format : Format) (root : String) (config : Config) (result : CheckResult) : Option Json :=
  match format with
  | .json => some (Report.Document.ofResult root result config.failOn).toJson
  | .sarif => some (Report.Sarif.Document.ofResult root result config.severity).toJson
  | .pretty => none

theorem not_isDocument_empty
    (json : Json) :
    ¬IsDocument "" json := by
  rintro ⟨document, htext, -⟩
  have hchars := congrArg String.toList htext
  simp at hchars

variable {workspace : Workspace} {parser : Source.Parser Language}
  {arguments : LintArguments} {colours : Bool} {root : String} {config : Config}
  {files : List String}

theorem isDocument_report
    {json : Json} (scan : Scan) (colours : Bool) (result : CheckResult)
    (h : arguments.format.json? scan.root scan.config result = some json) :
    IsDocument (scan.report arguments colours result) json := by
  unfold Scan.report
  unfold Format.json? at h
  cases hformat : arguments.format with
  | pretty =>
      simp only [hformat] at h
      cases h
  | json =>
      simp only [hformat, Option.some.injEq] at h ⊢
      exact ⟨_, rfl, h ▸ Json.parse?_render _⟩
  | sarif =>
      simp only [hformat, Option.some.injEq] at h ⊢
      exact ⟨_, rfl, h ▸ Json.parse?_render _⟩

theorem exists_json_of_ne_pretty
    (h : arguments.format ≠ .pretty) (root : String) (config : Config) (result : CheckResult) :
    ∃ json, arguments.format.json? root config result = some json := by
  unfold Format.json?
  cases hformat : arguments.format with
  | pretty => exact absurd hformat h
  | json => exact ⟨_, rfl⟩
  | sarif => exact ⟨_, rfl⟩

/-- What a run shows that is given up. -/
theorem lintPath_of_givenUp
    (parser : Source.Parser Language) (colours : Bool) (h : GivenUp workspace arguments) :
    ∃ message, lintPath workspace parser arguments colours = .failure message := by
  obtain ⟨cause, hsettle⟩ := settle_of_givenUp h
  rw [lintPath, hsettle]
  exact ⟨_, rfl⟩

/-- What a run shows that has nothing to check. -/
theorem lintPath_of_scans_nothing
    (h : Scans workspace arguments root config []) :
    lintPath workspace parser arguments colours =
      { exitCode := .success, stdout := "", stderr := "Warning: no files to scan\n" } := by
  rw [lintPath, settle_of_scans h]
  rfl

/-- A run that has a file to check writes one document, which says what the check found. -/
theorem isDocument_of_scans
    (parser : Source.Parser Language) (colours : Bool) (hformat : arguments.format ≠ .pretty)
    (hscans : Scans workspace arguments root config files) (hfiles : files ≠ []) :
    ∃ json,
      arguments.format.json? root config
          (({ config, workspace, parser } : Check.Setup).check files) = some json ∧
        IsDocument (lintPath workspace parser arguments colours).stdout json := by
  obtain ⟨json, hjson⟩ := exists_json_of_ne_pretty hformat root config
    (({ config, workspace, parser } : Check.Setup).check files)
  refine ⟨json, hjson, ?_⟩
  rw [lintPath_of_scans hscans hfiles]
  exact isDocument_report { root, config, files } colours _ hjson

/-- A run with a format for machines writes one document of its result if it has a file to
check.  It writes nothing if it has none, which is no error, or if it is given up. -/
theorem machine_report_of_scanned_files
    (workspace : Workspace) (parser : Source.Parser Language) (arguments : LintArguments)
    (colours : Bool) (hformat : arguments.format ≠ .pretty) :
    ((lintPath workspace parser arguments colours).exitCode.toNat = 2 →
      (lintPath workspace parser arguments colours).stdout = "") ∧
    ((lintPath workspace parser arguments colours).exitCode.toNat = 0 ∨
        (lintPath workspace parser arguments colours).exitCode.toNat = 1 →
      ∃ root config files, Scans workspace arguments root config files) ∧
    (∀ root config files, Scans workspace arguments root config files → files ≠ [] →
      ∃ json,
        arguments.format.json? root config
            (({ config, workspace, parser } : Check.Setup).check files) = some json ∧
          IsDocument (lintPath workspace parser arguments colours).stdout json) ∧
    (∀ root config, Scans workspace arguments root config [] →
      (lintPath workspace parser arguments colours).exitCode.toNat = 0 ∧
        (lintPath workspace parser arguments colours).stdout = "" ∧
        (lintPath workspace parser arguments colours).stderr = "Warning: no files to scan\n") ∧
    ((∃ json, IsDocument (lintPath workspace parser arguments colours).stdout json) ↔
      ∃ root config files, Scans workspace arguments root config files ∧ files ≠ []) := by
  refine ⟨?_, ?_, fun _ _ _ => isDocument_of_scans parser colours hformat, ?_, ?_⟩
  · intro hcode
    have hended : (lintPath workspace parser arguments colours).exitCode = .error :=
      toNat_injective hcode
    obtain ⟨hgivenUp⟩ := exitCode_eq_iff_ends.mp hended
    obtain ⟨message, hshown⟩ := lintPath_of_givenUp parser colours hgivenUp
    rw [hshown]
    rfl
  · intro hcode
    rcases givenUp_or_scans workspace arguments with hgivenUp | hscans
    · obtain ⟨message, hshown⟩ := lintPath_of_givenUp parser colours hgivenUp
      rw [hshown] at hcode
      simp [Outcome.failure, ExitCode.toNat] at hcode
    · exact hscans
  · intro root config hscans
    rw [lintPath_of_scans_nothing hscans]
    exact ⟨rfl, rfl, rfl⟩
  · constructor
    · rintro ⟨json, hdocument⟩
      rcases givenUp_or_scans workspace arguments with hgivenUp | ⟨root, config, files, hscans⟩
      · obtain ⟨message, hshown⟩ := lintPath_of_givenUp parser colours hgivenUp
        rw [hshown] at hdocument
        exact absurd hdocument (not_isDocument_empty json)
      · refine ⟨root, config, files, hscans, ?_⟩
        rintro rfl
        rw [lintPath_of_scans_nothing hscans] at hdocument
        exact not_isDocument_empty json hdocument
    · rintro ⟨root, config, files, hscans, hfiles⟩
      obtain ⟨json, -, hdocument⟩ := isDocument_of_scans parser colours hformat hscans hfiles
      exact ⟨json, hdocument⟩

/-- A run over the sample writes a document. -/
theorem sampleSetup_writes_document :
    sampleArguments.format ≠ .pretty ∧
      ∃ json,
        sampleArguments.format.json? "/a.js" .empty
            (({ Check.sampleSetup with config := .empty } : Check.Setup).check ["/a.js"]) =
              some json ∧
          IsDocument (lintPath Check.sampleSetup.workspace Check.sampleSetup.parser
            sampleArguments false).stdout json := by
  have hformat : sampleArguments.format ≠ .pretty := by decide
  obtain ⟨-, -, hwritten, -⟩ := machine_report_of_scanned_files Check.sampleSetup.workspace
    Check.sampleSetup.parser sampleArguments false hformat
  exact ⟨hformat, hwritten _ _ _ sampleSetup_scans (by decide)⟩

/-! ## A directory without sources -/

/-- A directory with one file, which is no source. -/
def unsourcedWorkspace : Workspace :=
  { files :=
      { entries := [(["notes.md"], .file [])]
        distinct := by decide
        grounded := by decide
        named := by decide }
    base := [] }

/-- The arguments that ask for a JSON report of the working directory. -/
def hereArguments : LintArguments :=
  { path := ".", config? := none, format := .json, showSuppressed := false }

theorem unsourcedWorkspace_scans_nothing :
    Scans unsourcedWorkspace hereArguments "/" .empty [] := by
  have hhere : unsourcedWorkspace.resolve "." = .ok [] := by
    apply Workspace.resolve_of_run (by decide)
    exact .single (.stay (by decide) (.inr rfl))
  have hroot : unsourcedWorkspace.resolve "/" = .ok [] := by
    apply Workspace.resolve_of_run (by decide)
    exact .head (.stay (by decide) (.inl rfl)) (.single (.stay (by decide) (.inl rfl)))
  have hdirectory : unsourcedWorkspace.isDirectory "/" = true :=
    Workspace.isDirectory_iff.mpr ⟨[], hroot, rfl⟩
  have hvacant : ∀ name ∈ Config.fileNames,
      unsourcedWorkspace.files.get? ([] ++ [name]) = none := by decide +kernel
  have hconfig : configFile? unsourcedWorkspace "/" = none := by
    rw [configFile?, if_pos hdirectory, discover?_eq_none hroot rfl hvacant,
      discover?_eq_none hhere rfl hvacant]
    rfl
  have hnames : unsourcedWorkspace.files.names [] = ["notes.md"] :=
    List.mergeSort_of_pairwise (by decide)
  have hkeeps : (["/notes.md"].filter (Config.empty.keeps "/")) = [] := by decide +kernel
  have hselect : Config.empty.select unsourcedWorkspace "/" = .ok [] := by
    rw [Config.select, Workspace.walk_eq_filesBelow hroot rfl,
      Workspace.filesBelow_eq_gather (Workspace.covers_directories _ _)]
    dsimp only
    rw [hnames, gather_cons_of_ok rfl]
    exact congrArg Except.ok hkeeps
  refine ⟨⟨[], hhere, by decide +kernel⟩, ?_, ?_⟩
  · rw [loadConfig, hereArguments, hconfig]
    rfl
  · rw [if_pos hdirectory]
    exact hselect

/-- A run over a directory without sources succeeds and writes no document. -/
theorem unsourcedWorkspace_writes_no_document :
    hereArguments.format = .json ∧
      (lintPath unsourcedWorkspace Check.sampleSetup.parser hereArguments
        false).exitCode.toNat = 0 ∧
      ¬∃ json, IsDocument
        (lintPath unsourcedWorkspace Check.sampleSetup.parser hereArguments false).stdout
          json := by
  rw [lintPath_of_scans_nothing unsourcedWorkspace_scans_nothing]
  exact ⟨rfl, rfl, fun ⟨json, hdocument⟩ => not_isDocument_empty json hdocument⟩

end HandlerLint.CommandLine
