import HandlerLint.CommandLine.Lint
import HandlerLint.Proofs.Check.Schedule
import HandlerLint.Proofs.Files.Trails
import HandlerLint.Proofs.Report.ReadBack

/-!
# How a run ends

A run of the linter ends in one of three ways.  It is given up where the path leads
nowhere, the configuration cannot be used or the files cannot be collected.  Otherwise it
fails where findings are serious enough to fail a run and one of the files hides an
exception that no directive in it speaks for, and it succeeds in all other cases.  Files
that cannot be checked have no part in this, nor has the form of the report; and what the
report says of the run is how the run ends.

The first part says when a check fails a run.  The second one says what a run scans and
when it is given up, and the last one puts the two together.
-/

namespace HandlerLint

open HandlerLint.Files

/-! ## Checks that fail a run -/

namespace Check.Setup

variable {setup : Setup} {file : String} {files : List String}

/-- A file in an enabled language can be read and lowered, and has a hiding handler that
no directive of the file suppresses. -/
def HidesUnspoken (setup : Setup) (file : String) : Prop :=
  ∃ bytes tree, setup.Lowers file bytes tree ∧
    ∃ finding ∈ tree.hidingHandlers,
      ∀ suppression ∈ Suppression.parse file (Text.decodeLossy bytes),
        suppression.covers (.ofClause setup.config.severity file finding.clause) = false

theorem mem_diagnostics_of_lowers
    {bytes : List UInt8} {tree : SyntaxTree} (h : setup.Lowers file bytes tree)
    {diagnostic : Diagnostic} :
    diagnostic ∈ (setup.checkFile file).diagnostics ↔
      (∃ finding ∈ tree.hidingHandlers,
        .ofClause setup.config.severity file finding.clause = diagnostic) ∧
      ∀ suppression ∈ Suppression.parse file (Text.decodeLossy bytes),
        suppression.covers diagnostic = false := by
  rw [checkFile_of_lowers h, diagnosed_eq, active_filterSuppressed, List.mem_filter, Rule.run,
    List.mem_map, path_of_lowers h]
  simp [isQuieted, ownSuppressions, rule]

/-- What a check reports of a file are its hiding handlers that nothing speaks for. -/
theorem mem_diagnostics_checkFile_iff
    {diagnostic : Diagnostic} :
    diagnostic ∈ (setup.checkFile file).diagnostics ↔
      ∃ bytes tree, setup.Lowers file bytes tree ∧ ∃ finding ∈ tree.hidingHandlers,
        .ofClause setup.config.severity file finding.clause = diagnostic ∧
        ∀ suppression ∈ Suppression.parse file (Text.decodeLossy bytes),
          suppression.covers diagnostic = false := by
  constructor
  · intro hmem
    rcases setup.checkFile_cases file with ⟨_, hnone⟩ | ⟨error, hfails⟩ | ⟨bytes, tree, hlowers⟩
    · rw [hnone] at hmem
      cases hmem
    · rw [checkFile_of_fails hfails] at hmem
      cases hmem
    · obtain ⟨⟨finding, hfinding, heq⟩, hspoken⟩ := (mem_diagnostics_of_lowers hlowers).mp hmem
      exact ⟨bytes, tree, hlowers, finding, hfinding, heq, hspoken⟩
  · rintro ⟨bytes, tree, hlowers, finding, hfinding, heq, hspoken⟩
    exact (mem_diagnostics_of_lowers hlowers).mpr ⟨⟨finding, hfinding, heq⟩, hspoken⟩

theorem severity_of_mem_checkFile
    {diagnostic : Diagnostic} (h : diagnostic ∈ (setup.checkFile file).diagnostics) :
    diagnostic.severity = setup.config.severity := by
  obtain ⟨_, _, _, _, _, rfl, _⟩ := mem_diagnostics_checkFile_iff.mp h
  rfl

theorem exists_mem_checkFile_iff :
    (∃ diagnostic, diagnostic ∈ (setup.checkFile file).diagnostics) ↔
      setup.HidesUnspoken file := by
  simp only [mem_diagnostics_checkFile_iff]
  constructor
  · rintro ⟨_, bytes, tree, hlowers, finding, hfinding, rfl, hspoken⟩
    exact ⟨bytes, tree, hlowers, finding, hfinding, hspoken⟩
  · rintro ⟨bytes, tree, hlowers, finding, hfinding, hspoken⟩
    exact ⟨_, bytes, tree, hlowers, finding, hfinding, rfl, hspoken⟩

/-- A check fails a run if findings are serious enough and one of the files hides an
exception that nothing in it speaks for. -/
theorem fails_check_iff
    {threshold : Severity} :
    (setup.check files).fails threshold = true ↔
      setup.config.severity.atLeast threshold = true ∧
        ∃ file ∈ files, setup.HidesUnspoken file := by
  simp only [CheckResult.fails, List.any_eq_true, diagnostics_check, List.mem_mergeSort,
    List.mem_flatMap]
  constructor
  · rintro ⟨diagnostic, ⟨file, hfile, hmem⟩, hsevere⟩
    rw [severity_of_mem_checkFile hmem] at hsevere
    exact ⟨hsevere, file, hfile, exists_mem_checkFile_iff.mp ⟨diagnostic, hmem⟩⟩
  · rintro ⟨hsevere, file, hfile, hhides⟩
    obtain ⟨diagnostic, hmem⟩ := exists_mem_checkFile_iff.mpr hhides
    refine ⟨diagnostic, ⟨file, hfile, hmem⟩, ?_⟩
    rw [severity_of_mem_checkFile hmem]
    exact hsevere

end Check.Setup

namespace CommandLine

variable {workspace : Workspace} {parser : Source.Parser Language}
  {arguments : LintArguments} {colours : Bool} {root : String} {config : Config}
  {files : List String}

/-! ## What a run scans -/

/-- A configuration file cannot be read, parsed or validated. -/
inductive ConfigUnusable (workspace : Workspace) (path : String) : Prop
  | unread {cause : FileError} (hread : workspace.read path = .error cause) :
      ConfigUnusable workspace path
  | unparsed {bytes : List UInt8} {cause : ConfigError}
      (hread : workspace.read path = .ok bytes)
      (hparse : Config.ofBytes path bytes = .error cause) :
      ConfigUnusable workspace path
  | invalid {bytes : List UInt8} {config : Config} {cause : ConfigError}
      (hread : workspace.read path = .ok bytes)
      (hparse : Config.ofBytes path bytes = .ok config)
      (hvalidate : config.validate = .error cause) :
      ConfigUnusable workspace path

/-- A run is given up. -/
inductive GivenUp (workspace : Workspace) (arguments : LintArguments) : Prop
  | path {cause : FileError} (hresolve : workspace.resolve arguments.path = .error cause) :
      GivenUp workspace arguments
  | config {location : Files.Location} {file : String}
      (hresolve : workspace.resolve arguments.path = .ok location)
      (hfile : arguments.config?.or (configFile? workspace location.path) = some file)
      (hunusable : ConfigUnusable workspace file) :
      GivenUp workspace arguments
  | files {location : Files.Location} {config : Config} {cause : WalkError}
      (hresolve : workspace.resolve arguments.path = .ok location)
      (hconfig : loadConfig workspace arguments.config? location.path = .ok config)
      (hdirectory : workspace.isDirectory location.path = true)
      (hselect : config.select workspace location.path = .error cause) :
      GivenUp workspace arguments

/-- A run scans some files: those that are selected in a directory, or the one file that
the path names. -/
structure Scans
    (workspace : Workspace) (arguments : LintArguments) (root : String) (config : Config)
    (files : List String) : Prop where
  resolves : ∃ location, workspace.resolve arguments.path = .ok location ∧ location.path = root
  loads : loadConfig workspace arguments.config? root = .ok config
  selects : if workspace.isDirectory root = true then config.select workspace root = .ok files
    else files = [root]

theorem readConfig_eq_error_iff
    {path : String} :
    (∃ cause, readConfig workspace path = .error cause) ↔ ConfigUnusable workspace path := by
  constructor
  · rintro ⟨cause, herror⟩
    rw [readConfig] at herror
    rcases hread : workspace.read path with _ | bytes
    · exact .unread hread
    · rw [hread] at herror
      rcases hparse : Config.ofBytes path bytes with _ | config
      · exact .unparsed hread hparse
      · rcases hvalidate : config.validate with _ | _
        · exact .invalid hread hparse hvalidate
        · simp [hparse, hvalidate, bind, Except.bind, pure, Except.pure] at herror
  · intro hunusable
    rw [readConfig]
    rcases hunusable with hread | ⟨hread, hparse⟩ | ⟨hread, hparse, hvalidate⟩
    · rw [hread]
      exact ⟨_, rfl⟩
    · simp only [hread, hparse, bind, Except.bind]
      exact ⟨_, rfl⟩
    · simp only [hread, hparse, hvalidate, bind, Except.bind]
      exact ⟨_, rfl⟩

theorem loadConfig_eq_error_iff :
    (∃ cause, loadConfig workspace arguments.config? root = .error cause) ↔
      ∃ file, arguments.config?.or (configFile? workspace root) = some file ∧
        ConfigUnusable workspace file := by
  rw [loadConfig]
  rcases arguments.config?.or (configFile? workspace root) with _ | file
  · simp
  · simp [readConfig_eq_error_iff]

theorem settle_of_loads
    {location : Files.Location} (hresolve : workspace.resolve arguments.path = .ok location)
    (hconfig : loadConfig workspace arguments.config? location.path = .ok config) :
    Scan.settle workspace arguments =
      if workspace.isDirectory location.path then
        match config.select workspace location.path with
        | .ok files => .ok { root := location.path, config, files }
        | .error cause => .error (.walk cause)
      else .ok { root := location.path, config, files := [location.path] } := by
  simp only [Scan.settle, hresolve, hconfig, bind, Except.bind]
  rfl

theorem settle_of_scans
    (h : Scans workspace arguments root config files) :
    Scan.settle workspace arguments = .ok { root, config, files } := by
  obtain ⟨⟨location, hresolve, rfl⟩, hconfig, hselect⟩ := h
  rw [settle_of_loads hresolve hconfig]
  by_cases hdirectory : workspace.isDirectory location.path = true
  · rw [if_pos hdirectory] at hselect ⊢
    rw [hselect]
  · rw [if_neg hdirectory] at hselect ⊢
    rw [hselect]

theorem settle_of_givenUp
    (h : GivenUp workspace arguments) :
    ∃ cause, Scan.settle workspace arguments = .error cause := by
  rcases h with hresolve | ⟨hresolve, hfile, hunusable⟩ | ⟨hresolve, hconfig, hdirectory, hselect⟩
  · rw [Scan.settle, hresolve]
    exact ⟨_, rfl⟩
  · obtain ⟨cause, hconfig⟩ := loadConfig_eq_error_iff.mpr ⟨_, hfile, hunusable⟩
    simp only [Scan.settle, hresolve, hconfig, bind, Except.bind]
    exact ⟨_, rfl⟩
  · rw [settle_of_loads hresolve hconfig, if_pos hdirectory, hselect]
    exact ⟨_, rfl⟩

/-- A run is given up or scans some files. -/
theorem givenUp_or_scans
    (workspace : Workspace) (arguments : LintArguments) :
    GivenUp workspace arguments ∨
      ∃ root config files, Scans workspace arguments root config files := by
  rcases hresolve : workspace.resolve arguments.path with _ | location
  · exact .inl (.path hresolve)
  rcases hconfig : loadConfig workspace arguments.config? location.path with cause | config
  · obtain ⟨file, hfile, hunusable⟩ := loadConfig_eq_error_iff.mp ⟨cause, hconfig⟩
    exact .inl (.config hresolve hfile hunusable)
  by_cases hdirectory : workspace.isDirectory location.path = true
  · rcases hselect : config.select workspace location.path with _ | files
    · exact .inl (.files hresolve hconfig hdirectory hselect)
    · refine .inr ⟨location.path, config, files, ⟨location, hresolve, rfl⟩, hconfig, ?_⟩
      rw [if_pos hdirectory]
      exact hselect
  · refine .inr ⟨location.path, config, [location.path], ⟨location, hresolve, rfl⟩, hconfig, ?_⟩
    rw [if_neg hdirectory]

/-! ## How a run ends -/

/-- What is found in some files fails a run. -/
def Condemns
    (workspace : Workspace) (parser : Source.Parser Language) (config : Config)
    (files : List String) : Prop :=
  config.severity.atLeast config.failOn = true ∧
    ∃ file ∈ files, ({ config, workspace, parser } : Check.Setup).HidesUnspoken file

theorem condemns_iff :
    Condemns workspace parser config files ↔
      (({ config, workspace, parser } : Check.Setup).check files).fails config.failOn = true := by
  rw [Check.Setup.fails_check_iff, Condemns]

theorem exitCode_of_givenUp
    (h : GivenUp workspace arguments) :
    (lintPath workspace parser arguments colours).exitCode = .error := by
  obtain ⟨cause, hsettle⟩ := settle_of_givenUp h
  rw [lintPath, hsettle]
  rfl

/-- What a run shows that has files to check. -/
theorem lintPath_of_scans
    (h : Scans workspace arguments root config files) (hfiles : files ≠ []) :
    lintPath workspace parser arguments colours =
      let result := ({ config, workspace, parser } : Check.Setup).check files
      { exitCode := if result.fails config.failOn then .failed else .success
        stdout := Scan.report { root, config, files } arguments colours result
        stderr := "" } := by
  have hempty : files.isEmpty = false := by simpa using hfiles
  rw [lintPath, settle_of_scans h]
  dsimp only [Scan.outcome]
  rw [if_neg (by rw [hempty]; exact Bool.false_ne_true)]

theorem exitCode_of_scans
    (h : Scans workspace arguments root config files) :
    (lintPath workspace parser arguments colours).exitCode =
      if (({ config, workspace, parser } : Check.Setup).check files).fails config.failOn then
        .failed
      else .success := by
  by_cases hfiles : files = []
  · subst hfiles
    have hfails : ¬(({ config, workspace, parser } : Check.Setup).check []).fails
        config.failOn = true := by
      simp [Check.Setup.fails_check_iff]
    rw [lintPath, settle_of_scans h, if_neg hfails]
    rfl
  · rw [lintPath_of_scans h hfiles]

/-- The ways in which a run ends, each with its exit code. -/
inductive Ends
    (workspace : Workspace) (parser : Source.Parser Language) (arguments : LintArguments) :
    ExitCode → Prop
  | error (hgivenUp : GivenUp workspace arguments) : Ends workspace parser arguments .error
  | failed {root : String} {config : Config} {files : List String}
      (hscans : Scans workspace arguments root config files)
      (hcondemns : Condemns workspace parser config files) :
      Ends workspace parser arguments .failed
  | success {root : String} {config : Config} {files : List String}
      (hscans : Scans workspace arguments root config files)
      (hspares : ¬Condemns workspace parser config files) :
      Ends workspace parser arguments .success

theorem Ends.exitCode_eq
    {code : ExitCode} (h : Ends workspace parser arguments code) :
    (lintPath workspace parser arguments colours).exitCode = code := by
  rcases h with hgivenUp | ⟨hscans, hcondemns⟩ | ⟨hscans, hspares⟩
  · exact exitCode_of_givenUp hgivenUp
  · rw [exitCode_of_scans hscans, if_pos (condemns_iff.mp hcondemns)]
  · rw [exitCode_of_scans hscans, if_neg fun hfails => hspares (condemns_iff.mpr hfails)]

/-- A run ends in exactly one of the ways. -/
theorem exitCode_eq_iff_ends
    {code : ExitCode} :
    (lintPath workspace parser arguments colours).exitCode = code ↔
      Ends workspace parser arguments code := by
  refine ⟨?_, Ends.exitCode_eq⟩
  rintro rfl
  have hends : ∃ code, Ends workspace parser arguments code := by
    rcases givenUp_or_scans workspace arguments with hgivenUp | ⟨root, config, files, hscans⟩
    · exact ⟨_, .error hgivenUp⟩
    · by_cases hcondemns : Condemns workspace parser config files
      · exact ⟨_, .failed hscans hcondemns⟩
      · exact ⟨_, .success hscans hcondemns⟩
  obtain ⟨code, hcode⟩ := hends
  rw [hcode.exitCode_eq]
  exact hcode

/-- How a run ends does not depend on how its result is reported. -/
theorem exitCode_lintPath_of_reported_otherwise
    (workspace : Workspace) (parser : Source.Parser Language) (arguments : LintArguments)
    (colours : Bool) (format : Format) (showSuppressed painted : Bool) :
    (lintPath workspace parser { arguments with format, showSuppressed } painted).exitCode =
      (lintPath workspace parser arguments colours).exitCode := by
  have hsettle : Scan.settle workspace { arguments with format, showSuppressed } =
      Scan.settle workspace arguments := rfl
  rw [lintPath, lintPath, hsettle]
  rcases Scan.settle workspace arguments with cause | scan
  · rfl
  · dsimp only [Scan.outcome]
    split
    · rfl
    · rfl

theorem toNat_injective : Function.Injective ExitCode.toNat := by
  intro left right h
  cases left <;> cases right <;> simp_all [ExitCode.toNat]

/-! ## What a report says of the run -/

theorem member?_passed_jsonText
    (base : String) (result : CheckResult) (failOn : Severity) :
    (Json.parse? (Report.jsonText base result failOn)).bind (·.member? "passed") =
      some (.bool (!result.fails failOn)) := by
  rw [Report.parse?_jsonText, Option.bind_some,
    Report.Document.member?_toJson _ (by decide) (by decide)]
  rfl

/-- The word for how a run ended, as a terminal with or without colours shows it. -/
def statusWord (colours : Bool) (code : ExitCode) : String :=
  if code = .success then Report.Paint.green.apply colours "PASSED"
  else Report.Paint.red.apply colours "FAILED"

example : statusWord false .success = "PASSED" ∧ statusWord false .failed = "FAILED" := by
  decide

/-- A report for people ends with a line that says how the check went. -/
theorem text_eq_append_status
    (options : Report.Pretty.Options) (result : CheckResult) :
    ∃ before, Report.Pretty.text options result =
      before ++ "  " ++
        statusWord options.colours (if result.fails options.failOn then .failed else .success) ++
        "\n\n" := by
  have hend : "\n" ++ "\n" = "\n\n" := by decide
  have hword : statusWord options.colours
        (if result.fails options.failOn then .failed else .success) =
      if result.fails options.failOn then Report.Pretty.painted options .red "FAILED"
      else Report.Pretty.painted options .green "PASSED" := by
    split <;> rfl
  rw [Report.Pretty.text, Report.Pretty.statusText, hword, ← hend]
  simp only [← String.append_assoc]
  exact ⟨_, rfl⟩

theorem passed_of_scans
    (h : Scans workspace arguments root config files) (hfiles : files ≠ [])
    (hformat : arguments.format = .json) :
    (Json.parse? (lintPath workspace parser arguments colours).stdout).bind (·.member? "passed") =
      some (.bool (decide ((lintPath workspace parser arguments colours).exitCode = .success))) := by
  rw [lintPath_of_scans h hfiles]
  dsimp only [Scan.report]
  rw [hformat]
  dsimp only
  rw [member?_passed_jsonText]
  by_cases hfails :
      (({ config, workspace, parser } : Check.Setup).check files).fails config.failOn = true
  · simp [hfails]
  · simp [hfails]

theorem status_of_scans
    (h : Scans workspace arguments root config files) (hfiles : files ≠ [])
    (hformat : arguments.format = .pretty) :
    ∃ before, (lintPath workspace parser arguments colours).stdout =
      before ++ "  " ++
        statusWord colours (lintPath workspace parser arguments colours).exitCode ++ "\n\n" := by
  rw [lintPath_of_scans h hfiles]
  dsimp only [Scan.report]
  rw [hformat]
  exact text_eq_append_status _ _

/-- How a run ends: it is given up, or it fails or succeeds by what is found in the files
that it scans.  How the result is reported has no part in this, and a report agrees with how
the run ends. -/
theorem lint_exit_code
    (workspace : Workspace) (parser : Source.Parser Language) (arguments : LintArguments)
    (colours : Bool) :
    ((lintPath workspace parser arguments colours).exitCode.toNat = 2 ↔
      GivenUp workspace arguments) ∧
    ((lintPath workspace parser arguments colours).exitCode.toNat = 1 ↔
      ∃ root config files, Scans workspace arguments root config files ∧
        Condemns workspace parser config files) ∧
    ((lintPath workspace parser arguments colours).exitCode.toNat = 0 ↔
      ∃ root config files, Scans workspace arguments root config files ∧
        ¬Condemns workspace parser config files) ∧
    (∀ format showSuppressed painted,
      (lintPath workspace parser { arguments with format, showSuppressed } painted).exitCode =
        (lintPath workspace parser arguments colours).exitCode) ∧
    (∀ root config files, Scans workspace arguments root config files → files ≠ [] →
      (arguments.format = .json →
        (Json.parse? (lintPath workspace parser arguments colours).stdout).bind (·.member? "passed") =
          some (.bool (decide ((lintPath workspace parser arguments colours).exitCode = .success)))) ∧
      (arguments.format = .pretty →
        ∃ before, (lintPath workspace parser arguments colours).stdout =
          before ++ "  " ++
            statusWord colours (lintPath workspace parser arguments colours).exitCode ++
              "\n\n")) := by
  refine ⟨?_, ?_, ?_,
    exitCode_lintPath_of_reported_otherwise workspace parser arguments colours, ?_⟩
  · refine (toNat_injective.eq_iff (b := .error)).trans (exitCode_eq_iff_ends.trans ⟨?_, .error⟩)
    rintro ⟨hgivenUp⟩
    exact hgivenUp
  · refine (toNat_injective.eq_iff (b := .failed)).trans (exitCode_eq_iff_ends.trans ⟨?_, ?_⟩)
    · rintro (_ | ⟨hscans, hcondemns⟩ | _)
      exact ⟨_, _, _, hscans, hcondemns⟩
    · rintro ⟨_, _, _, hscans, hcondemns⟩
      exact .failed hscans hcondemns
  · refine (toNat_injective.eq_iff (b := .success)).trans (exitCode_eq_iff_ends.trans ⟨?_, ?_⟩)
    · rintro (_ | _ | ⟨hscans, hspares⟩)
      exact ⟨_, _, _, hscans, hspares⟩
    · rintro ⟨_, _, _, hscans, hspares⟩
      exact .success hscans hspares
  · intro root config files hscans hfiles
    exact ⟨passed_of_scans hscans hfiles, status_of_scans hscans hfiles⟩

/-! ## The sample -/

/-- A directory with no configuration file has none to be found. -/
theorem discover?_eq_none
    {path : String} {directory : Files.Location}
    (hresolve : workspace.resolve path = .ok directory)
    (hdirectory : workspace.files.get? directory = some .directory)
    (hvacant : ∀ name ∈ Config.fileNames, workspace.files.get? (directory ++ [name]) = none) :
    Config.discover? workspace path = none := by
  obtain ⟨links, hleads⟩ := Workspace.exists_leads hresolve hdirectory
  rw [Config.discover?, List.find?_eq_none]
  intro file hfile
  obtain ⟨name, hmem, rfl⟩ := List.mem_map.mp hfile
  have hnames : ∀ name ∈ Config.fileNames, isName name = true := by decide
  obtain ⟨hvoid, hdots⟩ := FileSystem.isName_not_void (hnames name hmem)
  have hfind : workspace.find? (childPath path name) = none := by
    rw [Workspace.find?, Workspace.resolve, hleads.target_childPath (hnames name hmem),
      FileSystem.follow_name hdirectory hvoid hdots, hvacant name hmem]
    rfl
  rw [Workspace.isFile, hfind]
  exact Bool.false_ne_true

/-- The arguments that ask for a JSON report of the sample. -/
def sampleArguments : LintArguments :=
  { path := "a.js", config? := none, format := .json, showSuppressed := false }

theorem sampleSetup_resolve
    {path : String} (hpath : path = "a.js" ∨ path = "/a.js") :
    Check.sampleSetup.workspace.resolve path = .ok ["a.js"] := by
  have hfile : Check.sampleSetup.workspace.files.get? ([] ++ ["a.js"]) =
      some (.file Check.sampleSource) := by decide +kernel
  rcases hpath with rfl | rfl
  · apply Workspace.resolve_of_run (by decide)
    exact .single (.onto hfile (by simp))
  · apply Workspace.resolve_of_run (by decide)
    exact .head (.stay (by decide) (.inl rfl)) (.single (.onto hfile (by simp)))

theorem sampleSetup_scans :
    Scans Check.sampleSetup.workspace sampleArguments "/a.js" .empty ["/a.js"] := by
  have hfile : ¬Check.sampleSetup.workspace.isDirectory "/a.js" = true := by
    rw [Workspace.isDirectory_iff]
    rintro ⟨location, hresolve, hdirectory⟩
    rw [sampleSetup_resolve (.inr rfl)] at hresolve
    cases hresolve
    exact absurd hdirectory (by decide +kernel)
  have hroot : Check.sampleSetup.workspace.resolve "/" = .ok [] := by
    apply Workspace.resolve_of_run (by decide)
    exact .head (.stay (by decide) (.inl rfl)) (.single (.stay (by decide) (.inl rfl)))
  have hhere : Check.sampleSetup.workspace.resolve "." = .ok [] := by
    apply Workspace.resolve_of_run (by decide)
    exact .single (.stay (by decide) (.inr rfl))
  have hvacant : ∀ name ∈ Config.fileNames,
      Check.sampleSetup.workspace.files.get? ([] ++ [name]) = none := by decide +kernel
  have hparent : ((Path.parent? "/a.js".toList).map String.ofList).getD "." = "/" := by
    decide +kernel
  have hconfig : configFile? Check.sampleSetup.workspace "/a.js" = none := by
    rw [configFile?, if_neg hfile, hparent, discover?_eq_none hroot rfl hvacant,
      discover?_eq_none hhere rfl hvacant]
    rfl
  refine ⟨⟨["a.js"], sampleSetup_resolve (.inl rfl), by decide +kernel⟩, ?_, ?_⟩
  · rw [loadConfig, sampleArguments, hconfig]
    rfl
  · rw [if_neg hfile]

theorem sampleSetup_condemns :
    Condemns Check.sampleSetup.workspace Check.sampleSetup.parser .empty ["/a.js"] := by
  refine ⟨by decide, "/a.js", List.mem_singleton_self _, ?_⟩
  have hread : Check.sampleSetup.workspace.read "/a.js" = .ok Check.sampleSource := by
    rw [Workspace.read, sampleSetup_resolve (.inr rfl)]
    rfl
  have hhides :
      ((Lowering.lower .javascript "/a.js" Check.sampleSource Check.sampleTree).toOption.any
        fun tree => tree.hidingHandlers.any fun finding =>
          (Suppression.parse "/a.js" (Text.decodeLossy Check.sampleSource)).all
            fun suppression => !suppression.covers
              (.ofClause Config.empty.severity "/a.js" finding.clause)) = true := by
    decide +kernel
  cases hlower : Lowering.lower .javascript "/a.js" Check.sampleSource Check.sampleTree with
  | error cause =>
      rw [hlower] at hhides
      cases hhides
  | ok tree =>
      rw [hlower] at hhides
      obtain ⟨finding, hfinding, hspoken⟩ := List.any_eq_true.mp hhides
      refine ⟨_, tree, ⟨.javascript, by decide +kernel, hread, hlower⟩, finding, hfinding, ?_⟩
      intro suppression hmem
      simpa using List.all_eq_true.mp hspoken suppression hmem

/-- A run over the sample fails, and its report says so. -/
theorem sampleSetup_lint_fails :
    (lintPath Check.sampleSetup.workspace Check.sampleSetup.parser sampleArguments
        false).exitCode.toNat = 1 ∧
      (Json.parse? (lintPath Check.sampleSetup.workspace Check.sampleSetup.parser
        sampleArguments false).stdout).bind (·.member? "passed") = some (.bool false) := by
  obtain ⟨-, hfailed, -, -, hreports⟩ :=
    lint_exit_code Check.sampleSetup.workspace Check.sampleSetup.parser sampleArguments false
  have hexit := hfailed.mpr ⟨_, _, _, sampleSetup_scans, sampleSetup_condemns⟩
  obtain ⟨hpassed, -⟩ := hreports _ _ _ sampleSetup_scans (by decide)
  have hcode : (lintPath Check.sampleSetup.workspace Check.sampleSetup.parser
      sampleArguments false).exitCode = .failed := toNat_injective hexit
  refine ⟨hexit, (hpassed rfl).trans ?_⟩
  rw [hcode]
  rfl

end CommandLine

end HandlerLint
