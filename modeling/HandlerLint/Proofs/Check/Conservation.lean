import Mathlib.Data.List.Perm.Basic
import HandlerLint.Proofs.Check.Schedule

/-!
# What a check keeps

Every listed file in an enabled language is counted once, as scanned or as a failure.
Every diagnostic that the rule emits for a file is kept once, as active or as suppressed.
A file that fails adds its failure and nothing else, and what a check says about one file
depends on that file alone: no directive reaches into another file.
-/

namespace HandlerLint.Check.Setup

open HandlerLint.Files
open HandlerLint.Lowering (lower)

variable {setup : Setup} {file : String}

/-! ## Models -/

/-- The model of a file, if its language is enabled and it could be read and lowered. -/
def lowered? (setup : Setup) (file : String) : Option SyntaxTree := do
  let language ← setup.language? file
  let bytes ← (setup.workspace.read file).toOption
  (lower language file bytes (setup.parser language bytes)).toOption

theorem lowered?_of_none
    (h : setup.language? file = none) :
    setup.lowered? file = none := by
  unfold lowered?
  rw [h]
  rfl

theorem lowered?_of_fails
    {error : String} (h : setup.Fails file error) :
    setup.lowered? file = none := by
  unfold lowered?
  cases h with
  | unreadable hlanguage hread =>
      rw [hlanguage, hread]
      rfl
  | unlowerable hlanguage hread hlower =>
      rw [hlanguage, hread]
      simp [Except.toOption, hlower]

theorem lowered?_of_lowers
    {bytes : List UInt8} {tree : SyntaxTree} (h : setup.Lowers file bytes tree) :
    setup.lowered? file = some tree := by
  obtain ⟨language, hlanguage, hread, hlower⟩ := h
  unfold lowered?
  rw [hlanguage, hread]
  simp [Except.toOption, hlower]

/-! ## One file -/

theorem any_enables_of_language?
    {language : Language} (h : setup.language? file = some language) :
    (Language.ofPath? file).any (setup.config.enables ·.id) = true := by
  by_contra hnone
  rw [Bool.not_eq_true, ← language?_eq_none_iff, h] at hnone
  cases hnone

/-- A file in an enabled language is scanned or fails, and no other file does. -/
theorem scanned_add_failures_checkFile
    (setup : Setup) (file : String) :
    (setup.checkFile file).scanned + (setup.checkFile file).failures.length =
      if (Language.ofPath? file).any (setup.config.enables ·.id) then 1 else 0 := by
  rcases setup.checkFile_cases file with ⟨hnone, hresult⟩ | ⟨error, hfails⟩ | ⟨bytes, tree, h⟩
  · rw [hresult, language?_eq_none_iff.mp hnone]
    rfl
  · have henabled : (Language.ofPath? file).any (setup.config.enables ·.id) = true := by
      cases hfails with
      | unreadable hlanguage _ => exact any_enables_of_language? hlanguage
      | unlowerable hlanguage _ _ => exact any_enables_of_language? hlanguage
    rw [checkFile_of_fails hfails, henabled]
    rfl
  · obtain ⟨language, hlanguage, _⟩ := id h
    rw [checkFile_of_lowers h, diagnosed_eq, any_enables_of_language? hlanguage]
    rfl

/-- A file keeps what the rule emits for its model. -/
theorem perm_checkFile
    (setup : Setup) (file : String) :
    ((setup.checkFile file).diagnostics ++
      (setup.checkFile file).suppressed.map (·.diagnostic)).Perm
      ((setup.lowered? file).toList.flatMap setup.rule.run) := by
  rcases setup.checkFile_cases file with ⟨hnone, hresult⟩ | ⟨error, hfails⟩ | ⟨bytes, tree, h⟩
  · rw [hresult, lowered?_of_none hnone]
    exact .refl _
  · rw [checkFile_of_fails hfails, lowered?_of_fails hfails]
    exact .refl _
  · rw [checkFile_of_lowers h, diagnosed_eq, lowered?_of_lowers h, Option.toList_some,
      List.flatMap_singleton]
    exact perm_filterSuppressed _

/-- A suppressed diagnostic of a file comes with a suppression of that file. -/
theorem suppression_of_mem_checkFile
    {entry : SuppressedDiagnostic} (h : entry ∈ (setup.checkFile file).suppressed) :
    ∃ bytes, setup.workspace.read file = .ok bytes ∧
      entry.suppression ∈ Suppression.parse file (Text.decodeLossy bytes) ∧
      entry.suppression.covers entry.diagnostic = true := by
  rcases setup.checkFile_cases file with ⟨_, hresult⟩ | ⟨error, hfails⟩ | ⟨bytes, tree, hlowers⟩
  · rw [hresult] at h
    cases h
  · rw [checkFile_of_fails hfails] at h
    cases h
  · rw [checkFile_of_lowers hlowers, diagnosed_eq] at h
    have hfind := find?_of_mem_suppressed h
    have hcovers := List.find?_some hfind
    obtain ⟨language, _, hread, _⟩ := hlowers
    exact ⟨bytes, hread, List.mem_of_find?_eq_some hfind, hcovers⟩

/-- A file is checked alike wherever it reads alike. -/
theorem checkFile_eq_of_read_eq
    {workspace : Workspace} (h : workspace.read file = setup.workspace.read file) :
    checkFile { setup with workspace } file = setup.checkFile file := by
  have hlanguage : language? { setup with workspace } file = setup.language? file := rfl
  unfold checkFile
  rw [hlanguage]
  cases setup.language? file with
  | none => rfl
  | some language =>
      unfold checkAs
      simp only [h]

/-! ## All files -/

theorem scanned_add_failures_check
    (setup : Setup) (files : List String) :
    (setup.check files).scanned + (setup.check files).failures.length =
      files.countP fun file => (Language.ofPath? file).any (setup.config.enables ·.id) := by
  rw [scanned_check, failures_check, List.length_mergeSort]
  induction files with
  | nil => rfl
  | cons file files ih =>
      have hfile := setup.scanned_add_failures_checkFile file
      rw [List.map_cons, List.sum_cons, List.flatMap_cons, List.length_append,
        List.countP_cons, ← ih]
      omega

theorem perm_check
    (setup : Setup) (files : List String) :
    ((setup.check files).diagnostics ++
      (setup.check files).suppressed.map (·.diagnostic)).Perm
      ((files.filterMap setup.lowered?).flatMap setup.rule.run) := by
  have hdiagnostics := List.mergeSort_perm
    (files.flatMap fun file => (setup.checkFile file).diagnostics) Diagnostic.le
  have hsuppressed := (List.mergeSort_perm
    (files.flatMap fun file => (setup.checkFile file).suppressed)
    CheckResult.suppressedLe).map (·.diagnostic)
  rw [List.map_flatMap] at hsuppressed
  rw [diagnostics_check, suppressed_check, List.filterMap_eq_flatMap_toList,
    List.flatMap_assoc]
  refine (hdiagnostics.append hsuppressed).trans ?_
  refine (List.flatMap_append_perm files _ _).trans ?_
  exact List.Perm.flatMap_left files fun file _ => setup.perm_checkFile file

/-- A file that fails adds its failure and changes nothing else. -/
theorem check_of_fails
    {error : String} (h : setup.Fails file error) (before after : List String) :
    (setup.check (before ++ file :: after)).diagnostics =
        (setup.check (before ++ after)).diagnostics ∧
      (setup.check (before ++ file :: after)).suppressed =
        (setup.check (before ++ after)).suppressed ∧
      (setup.check (before ++ file :: after)).scanned =
        (setup.check (before ++ after)).scanned ∧
      (setup.check (before ++ file :: after)).failures.Perm
        ({ file, error } :: (setup.check (before ++ after)).failures) := by
  have hresult := checkFile_of_fails h
  refine ⟨?_, ?_, ?_, ?_⟩
  · rw [diagnostics_check, diagnostics_check, List.flatMap_append, List.flatMap_append,
      List.flatMap_cons, hresult]
    rfl
  · rw [suppressed_check, suppressed_check, List.flatMap_append, List.flatMap_append,
      List.flatMap_cons, hresult]
    rfl
  · rw [scanned_check, scanned_check, List.map_append, List.map_append, List.map_cons,
      List.sum_append, List.sum_append, List.sum_cons, hresult]
    change _ + (0 + _) = _
    rw [Nat.zero_add]
  · rw [failures_check, failures_check, List.flatMap_append, List.flatMap_append,
      List.flatMap_cons, hresult]
    refine (List.mergeSort_perm _ _).trans ?_
    refine List.perm_middle.trans (List.Perm.cons _ ?_)
    exact (List.mergeSort_perm _ _).symm

/-- What a check says about a file depends on the content of that file only. -/
theorem check_about_file_eq
    {workspace : Workspace} (h : workspace.read file = setup.workspace.read file)
    (files : List String) :
    (check { setup with workspace } files).diagnostics.filter (fun entry => entry.file = file) =
        (setup.check files).diagnostics.filter (fun entry => entry.file = file) ∧
      (check { setup with workspace } files).suppressed.filter
          (fun entry => entry.diagnostic.file = file) =
        (setup.check files).suppressed.filter (fun entry => entry.diagnostic.file = file) ∧
      (check { setup with workspace } files).failures.filter (fun entry => entry.file = file) =
        (setup.check files).failures.filter (fun entry => entry.file = file) := by
  have hfile := checkFile_eq_of_read_eq h
  refine ⟨?_, ?_, ?_⟩
  · rw [diagnostics_check, diagnostics_check,
      filter_name_mergeSort_flatMap comparesBy_diagnostic (namesFile_diagnostics _),
      filter_name_mergeSort_flatMap comparesBy_diagnostic (namesFile_diagnostics _), hfile]
  · rw [suppressed_check, suppressed_check,
      filter_name_mergeSort_flatMap comparesBy_suppressed (namesFile_suppressed _),
      filter_name_mergeSort_flatMap comparesBy_suppressed (namesFile_suppressed _), hfile]
  · rw [failures_check, failures_check,
      filter_name_mergeSort_flatMap comparesBy_failure (namesFile_failures _),
      filter_name_mergeSort_flatMap comparesBy_failure (namesFile_failures _), hfile]

/-- Scanned files and failures together are the listed files in an enabled language, with
multiplicity.  Active and suppressed diagnostics together are what the rule emits on the
models of the files that could be read and lowered.  A file that fails adds one failure
and leaves the rest as it is without the file.  A suppressed diagnostic comes with a
suppression from its own file, and what is said about one file does not change when other
files change. -/
theorem check_conserves
    (setup : Setup) (files : List String) :
    ((setup.check files).scanned + (setup.check files).failures.length =
        files.countP fun file => (Language.ofPath? file).any (setup.config.enables ·.id)) ∧
      ((setup.check files).diagnostics ++
        (setup.check files).suppressed.map (·.diagnostic)).Perm
        ((files.filterMap setup.lowered?).flatMap setup.rule.run) ∧
      (∀ before file after error,
        files = before ++ file :: after → setup.Fails file error →
          (setup.check files).diagnostics = (setup.check (before ++ after)).diagnostics ∧
            (setup.check files).suppressed = (setup.check (before ++ after)).suppressed ∧
            (setup.check files).scanned = (setup.check (before ++ after)).scanned ∧
            (setup.check files).failures.Perm
              ({ file, error } :: (setup.check (before ++ after)).failures)) ∧
      (∀ entry ∈ (setup.check files).suppressed,
        entry.diagnostic.file ∈ files ∧
          ∃ bytes, setup.workspace.read entry.diagnostic.file = .ok bytes ∧
            entry.suppression ∈
              Suppression.parse entry.diagnostic.file (Text.decodeLossy bytes) ∧
            entry.suppression.covers entry.diagnostic = true) ∧
      ∀ (workspace : Workspace) (file : String),
        workspace.read file = setup.workspace.read file →
          (check { setup with workspace } files).diagnostics.filter (·.file = file) =
              (setup.check files).diagnostics.filter (·.file = file) ∧
            (check { setup with workspace } files).suppressed.filter
                (·.diagnostic.file = file) =
              (setup.check files).suppressed.filter (·.diagnostic.file = file) ∧
            (check { setup with workspace } files).failures.filter (·.file = file) =
              (setup.check files).failures.filter (·.file = file) := by
  refine ⟨setup.scanned_add_failures_check files, setup.perm_check files, ?_, ?_, ?_⟩
  · intro before file after error hfiles hfails
    subst hfiles
    exact check_of_fails hfails before after
  · intro entry hentry
    rw [suppressed_check, List.mem_mergeSort] at hentry
    obtain ⟨file, hfile, hmem⟩ := List.mem_flatMap.mp hentry
    rw [(setup.about_checkFile file).suppressed entry hmem]
    exact ⟨hfile, suppression_of_mem_checkFile hmem⟩
  · intro workspace file hread
    exact check_about_file_eq hread files

/-! ## The sample -/

theorem sampleSetup_fails :
    sampleSetup.Fails "gone.js" "No such file or directory (os error 2)" := by
  have hlanguage : sampleSetup.language? "gone.js" = some .javascript := by decide +kernel
  have hsegments : segments "gone.js" = ["gone.js"] := by decide +kernel
  have habsolute : isAbsolute "gone.js" = false := by decide +kernel
  have hvacant : sampleSetup.workspace.files.get? ["gone.js"] = none := by decide +kernel
  have hbase : sampleSetup.workspace.base = [] := rfl
  have hread : sampleSetup.workspace.read "gone.js" = .error .notFound := by
    unfold Workspace.read Workspace.resolve Workspace.target
    rw [if_neg (by decide), hsegments, habsolute, hbase, FileSystem.follow]
    simp [hvacant]
    rfl
  exact .unreadable hlanguage hread

/-- Two of the three listed files are in an enabled language, and the missing one of them
changes nothing for the other one. -/
theorem sampleSetup_check_conserves :
    ((sampleSetup.check ["a.js", "gone.js", "notes.md"]).scanned +
        (sampleSetup.check ["a.js", "gone.js", "notes.md"]).failures.length = 2) ∧
      sampleSetup.Fails "gone.js" "No such file or directory (os error 2)" ∧
      (sampleSetup.check ["a.js", "gone.js", "notes.md"]).diagnostics =
        (sampleSetup.check ["a.js", "notes.md"]).diagnostics ∧
      (sampleSetup.check ["a.js", "gone.js", "notes.md"]).failures.Perm
        (⟨"gone.js", "No such file or directory (os error 2)"⟩ ::
          (sampleSetup.check ["a.js", "notes.md"]).failures) := by
  have hcount :
      ["a.js", "gone.js", "notes.md"].countP (fun file =>
        (Language.ofPath? file).any (sampleSetup.config.enables ·.id)) = 2 := by
    decide +kernel
  obtain ⟨hscanned, _, hfailing, _⟩ :=
    sampleSetup.check_conserves ["a.js", "gone.js", "notes.md"]
  obtain ⟨hdiagnostics, _, _, hfailures⟩ :=
    hfailing ["a.js"] "gone.js" ["notes.md"] _ rfl sampleSetup_fails
  exact ⟨hscanned.trans hcount, sampleSetup_fails, hdiagnostics, hfailures⟩

end HandlerLint.Check.Setup
