import Mathlib.Algebra.Ring.Nat
import HandlerLint.Check.Run
import HandlerLint.Proofs.Check.Order
import HandlerLint.Proofs.Suppression.Partition

/-!
# What each file contributes

The result of a check is made of the results of its files, one after another, and then
sorted.  A file contributes nothing, one failure, or its divided diagnostics, and
whatever it contributes carries its name.

Names are what makes the sorted result easy to describe.  The entries with one name in
the results of a list of files are the contribution of one file, as many times over as
the file is listed, wherever in the list it stands.
-/

namespace HandlerLint

/-! ## Results one after another -/

namespace CheckResult

/-- Some results, one after another. -/
def concat (results : List CheckResult) : CheckResult :=
  { diagnostics := results.flatMap (·.diagnostics)
    suppressed := results.flatMap (·.suppressed)
    failures := results.flatMap (·.failures)
    scanned := (results.map (·.scanned)).sum }

theorem concat_nil : concat [] = empty :=
  rfl

theorem concat_cons
    (result : CheckResult) (results : List CheckResult) :
    concat (result :: results) = result.merge (concat results) :=
  rfl

theorem concat_append
    (left right : List CheckResult) :
    concat (left ++ right) = (concat left).merge (concat right) := by
  induction left with
  | nil => rw [List.nil_append, concat_nil, empty_merge]
  | cons result left ih => rw [List.cons_append, concat_cons, concat_cons, ih, merge_assoc]

theorem foldl_merge_eq_concat
    (results : List CheckResult) (start : CheckResult) :
    results.foldl merge start = start.merge (concat results) := by
  induction results generalizing start with
  | nil => rw [List.foldl_nil, concat_nil, merge_empty]
  | cons result results ih => rw [List.foldl_cons, ih, concat_cons, merge_assoc]

/-- Everything in a result is about one file. -/
structure About (file : String) (result : CheckResult) : Prop where
  diagnostics : ∀ diagnostic ∈ result.diagnostics, diagnostic.file = file
  suppressed : ∀ entry ∈ result.suppressed, entry.diagnostic.file = file
  failures : ∀ failure ∈ result.failures, failure.file = file

end CheckResult

/-! ## Entries with a name -/

section Named

variable {α κ : Type} [LinearOrder κ] {key : α → κ} {le : α → α → Bool}
variable {name : α → String} {entriesOf : String → List α}

/-- Every entry that a file contributes has the name of the file. -/
def NamesFile (name : α → String) (entriesOf : String → List α) : Prop :=
  ∀ file, ∀ entry ∈ entriesOf file, name entry = file

/-- Of all entries of some files, those picked by a test that only one name passes are
the picked ones of one file, once for each time the file is listed. -/
theorem filter_flatMap_eq_replicate
    (hnames : NamesFile name entriesOf) {p : α → Bool} {file : String}
    (hp : ∀ entry, p entry = true → name entry = file) (files : List String) :
    (files.flatMap entriesOf).filter p =
      (List.replicate (files.count file) ((entriesOf file).filter p)).flatten := by
  induction files with
  | nil => rfl
  | cons first files ih =>
      rw [List.flatMap_cons, List.filter_append, ih]
      by_cases hfirst : first = file
      · subst hfirst
        rw [List.count_cons_self, List.replicate_succ, List.flatten_cons]
      · have hnone : (entriesOf first).filter p = [] := by
          rw [List.filter_eq_nil_iff]
          intro entry hentry hpicked
          have hname := hnames first entry hentry
          exact hfirst (hname.symm.trans (hp entry hpicked))
        rw [hnone, List.nil_append, List.count_cons_of_ne hfirst]

/-- In whatever order files are listed, their entries are sorted alike. -/
theorem mergeSort_flatMap_eq_of_perm
    (hle : ComparesBy key le) (hnames : NamesFile name entriesOf)
    (hkey : ∀ left right, key left = key right → name left = name right)
    {files others : List String} (h : files.Perm others) :
    (files.flatMap entriesOf).mergeSort le = (others.flatMap entriesOf).mergeSort le := by
  apply mergeSort_eq_of_filter_key_eq hle
  intro k
  -- The entries with one key, if there are any, all have the same name.
  by_cases hany : ∃ entry, key entry = k
  · obtain ⟨some, hsome⟩ := hany
    have hpicked :
        ∀ entry, decide (key entry = k) = true → name entry = name some := by
      intro entry hentry
      exact hkey entry some ((of_decide_eq_true hentry).trans hsome.symm)
    rw [filter_flatMap_eq_replicate hnames hpicked,
      filter_flatMap_eq_replicate hnames hpicked, h.count_eq]
  · have hnone : ∀ entries : List α, entries.filter (fun entry => key entry = k) = [] := by
      intro entries
      rw [List.filter_eq_nil_iff]
      intro entry _ hentry
      exact hany ⟨entry, of_decide_eq_true hentry⟩
    rw [hnone, hnone]

/-- The sorted entries with one name depend on the contribution of one file only. -/
theorem filter_name_mergeSort_flatMap
    (hle : ComparesBy key le) (hnames : NamesFile name entriesOf)
    (files : List String) (file : String) :
    ((files.flatMap entriesOf).mergeSort le).filter (fun entry => name entry = file) =
      (List.replicate (files.count file) (entriesOf file)).flatten.mergeSort le := by
  have hown : (entriesOf file).filter (fun entry => name entry = file) = entriesOf file := by
    rw [List.filter_eq_self]
    intro entry hentry
    exact decide_eq_true (hnames file entry hentry)
  rw [filter_mergeSort hle,
    filter_flatMap_eq_replicate hnames fun entry hentry => of_decide_eq_true hentry, hown]

end Named

/-! ## The contribution of a file -/

namespace Check

open HandlerLint.Lowering (lower)

/-- The suppressions that the content of a file asks for. -/
def ownSuppressions (file : String) (bytes : List UInt8) : List Suppression :=
  Suppression.parse file (Text.decodeLossy bytes)

/-- Diagnostics are divided also where there are none. -/
theorem diagnosed_eq
    (file : String) (bytes : List UInt8) (diagnostics : List Diagnostic) :
    diagnosed file bytes diagnostics =
      { diagnostics := (filterSuppressed (ownSuppressions file bytes) diagnostics).active
        suppressed := (filterSuppressed (ownSuppressions file bytes) diagnostics).suppressed
        failures := []
        scanned := 1 } := by
  cases diagnostics with
  | nil => rfl
  | cons diagnostic diagnostics => rfl

namespace Setup

variable {setup : Setup} {file : String}

/-- The rule that files are checked with. -/
def rule (setup : Setup) : Rule :=
  { severity := setup.config.severity }

/-- A file in an enabled language could be read and lowered. -/
def Lowers (setup : Setup) (file : String) (bytes : List UInt8) (tree : SyntaxTree) : Prop :=
  ∃ language, setup.language? file = some language ∧
    setup.workspace.read file = .ok bytes ∧
    lower language file bytes (setup.parser language bytes) = .ok tree

/-- A file in an enabled language could not be read, or could be read and not be lowered,
for a reason with a given text. -/
inductive Fails (setup : Setup) (file : String) : String → Prop
  | unreadable {language : Language} {cause : Files.FileError} :
      setup.language? file = some language →
      setup.workspace.read file = .error cause →
        Fails setup file cause.message
  | unlowerable {language : Language} {bytes : List UInt8} {cause : Lowering.LowerError} :
      setup.language? file = some language →
      setup.workspace.read file = .ok bytes →
      lower language file bytes (setup.parser language bytes) = .error cause →
        Fails setup file (cause.message file)

theorem language?_eq_none_iff :
    setup.language? file = none ↔
      (Language.ofPath? file).any (setup.config.enables ·.id) = false := by
  unfold language?
  cases Language.ofPath? file with
  | none => simp
  | some language => simp

theorem checkFile_of_fails
    {error : String} (h : setup.Fails file error) :
    setup.checkFile file = failure file error := by
  unfold checkFile checkAs
  cases h with
  | unreadable hlanguage hread => simp only [hlanguage, hread]
  | unlowerable hlanguage hread hlower => simp only [hlanguage, hread, hlower]

theorem checkFile_of_lowers
    {bytes : List UInt8} {tree : SyntaxTree} (h : setup.Lowers file bytes tree) :
    setup.checkFile file = diagnosed file bytes (setup.rule.run tree) := by
  obtain ⟨language, hlanguage, hread, hlower⟩ := h
  unfold checkFile checkAs
  simp only [hlanguage, hread, hlower]
  rfl

/-- A file is not looked at, or it fails, or it is diagnosed. -/
theorem checkFile_cases
    (setup : Setup) (file : String) :
    (setup.language? file = none ∧ setup.checkFile file = .empty) ∨
      (∃ error, setup.Fails file error) ∨
      ∃ bytes tree, setup.Lowers file bytes tree := by
  cases hlanguage : setup.language? file with
  | none =>
      refine Or.inl ⟨rfl, ?_⟩
      unfold checkFile
      simp only [hlanguage]
  | some language =>
      right
      cases hread : setup.workspace.read file with
      | error cause => exact Or.inl ⟨_, .unreadable hlanguage hread⟩
      | ok bytes =>
          cases hlower : lower language file bytes (setup.parser language bytes) with
          | error cause => exact Or.inl ⟨_, .unlowerable hlanguage hread hlower⟩
          | ok tree => exact Or.inr ⟨bytes, tree, language, hlanguage, hread, hlower⟩

theorem path_of_lowers
    {bytes : List UInt8} {tree : SyntaxTree} (h : setup.Lowers file bytes tree) :
    tree.path = file := by
  obtain ⟨language, _, _, hlower⟩ := h
  unfold lower at hlower
  split at hlower
  · cases hlower
  · cases hlower
    rfl

theorem file_of_mem_run
    {bytes : List UInt8} {tree : SyntaxTree} (h : setup.Lowers file bytes tree)
    {diagnostic : Diagnostic} (hmem : diagnostic ∈ setup.rule.run tree) :
    diagnostic.file = file := by
  obtain ⟨finding, _, rfl⟩ := List.mem_map.mp hmem
  exact path_of_lowers h

/-! ## Everything carries the name of its file -/

theorem about_checkFile
    (setup : Setup) (file : String) :
    CheckResult.About file (setup.checkFile file) := by
  rcases setup.checkFile_cases file with ⟨_, hnone⟩ | ⟨error, hfails⟩ | ⟨bytes, tree, hlowers⟩
  · rw [hnone]
    exact ⟨by simp [CheckResult.empty], by simp [CheckResult.empty],
      by simp [CheckResult.empty]⟩
  · rw [checkFile_of_fails hfails]
    exact ⟨by simp [failure, CheckResult.empty], by simp [failure, CheckResult.empty],
      by simp [failure]⟩
  · rw [checkFile_of_lowers hlowers, diagnosed_eq]
    refine ⟨?_, ?_, by simp⟩
    · intro diagnostic hmem
      simp only [active_filterSuppressed] at hmem
      exact file_of_mem_run hlowers (List.mem_filter.mp hmem).1
    · intro entry hmem
      have hdiagnostic := List.mem_map_of_mem (f := fun entry => entry.diagnostic) hmem
      rw [map_diagnostic_filterSuppressed] at hdiagnostic
      exact file_of_mem_run hlowers (List.mem_filter.mp hdiagnostic).1

theorem namesFile_diagnostics
    (setup : Setup) :
    NamesFile Diagnostic.file fun file => (setup.checkFile file).diagnostics :=
  fun file => (setup.about_checkFile file).diagnostics

theorem namesFile_suppressed
    (setup : Setup) :
    NamesFile (fun entry : SuppressedDiagnostic => entry.diagnostic.file) fun file =>
      (setup.checkFile file).suppressed :=
  fun file => (setup.about_checkFile file).suppressed

theorem namesFile_failures
    (setup : Setup) :
    NamesFile FileFailure.file fun file => (setup.checkFile file).failures :=
  fun file => (setup.about_checkFile file).failures

/-! ## The result of some files -/

theorem check_eq_sort_concat
    (setup : Setup) (files : List String) :
    setup.check files = (CheckResult.concat (files.map setup.checkFile)).sort := by
  rw [check, CheckResult.foldl_merge_eq_concat, CheckResult.empty_merge]

theorem diagnostics_check
    (setup : Setup) (files : List String) :
    (setup.check files).diagnostics =
      (files.flatMap fun file => (setup.checkFile file).diagnostics).mergeSort
        Diagnostic.le := by
  rw [check_eq_sort_concat]
  simp only [CheckResult.sort, CheckResult.concat, List.flatMap_map]

theorem suppressed_check
    (setup : Setup) (files : List String) :
    (setup.check files).suppressed =
      (files.flatMap fun file => (setup.checkFile file).suppressed).mergeSort
        CheckResult.suppressedLe := by
  rw [check_eq_sort_concat]
  simp only [CheckResult.sort, CheckResult.concat, List.flatMap_map]

theorem failures_check
    (setup : Setup) (files : List String) :
    (setup.check files).failures =
      (files.flatMap fun file => (setup.checkFile file).failures).mergeSort
        CheckResult.failureLe := by
  rw [check_eq_sort_concat]
  simp only [CheckResult.sort, CheckResult.concat, List.flatMap_map]

theorem scanned_check
    (setup : Setup) (files : List String) :
    (setup.check files).scanned =
      (files.map fun file => (setup.checkFile file).scanned).sum := by
  rw [check_eq_sort_concat]
  simp only [CheckResult.sort, CheckResult.concat, List.map_map, Function.comp_def]

end Setup

end Check

end HandlerLint
