import HandlerLint.Proofs.Check.Contribution

/-!
# Checking in any order

Files may be checked side by side.  The list of files is then cut into pieces, the pieces
into smaller pieces and so on, and the results are merged along the cuts, with empty
results in between.  However the list is cut, and in whatever order the files are listed,
the result of the check is the same.

Merging along the cuts gives the results of the files one after another, because merging
is associative and an empty result is neutral.  The final sort then forgets the order of
the files: entries that it leaves as they are have the same file.
-/

namespace HandlerLint.Check

/-- A way to merge the results of some files. -/
inductive Schedule where
  /-- An empty result. -/
  | idle
  /-- The result of one file. -/
  | file (path : String)
  /-- What is merged on the left, then what is merged on the right. -/
  | join (left right : Schedule)

namespace Schedule

/-- The files of a schedule from left to right. -/
def files : Schedule → List String
  | .idle => []
  | .file path => [path]
  | .join left right => left.files ++ right.files

/-- What a schedule merges, before it is sorted. -/
def result (setup : Setup) : Schedule → CheckResult
  | .idle => .empty
  | .file path => setup.checkFile path
  | .join left right => (left.result setup).merge (right.result setup)

theorem result_eq_concat
    (setup : Setup) (schedule : Schedule) :
    schedule.result setup = CheckResult.concat (schedule.files.map setup.checkFile) := by
  induction schedule with
  | idle => rfl
  | file path =>
      rw [files, List.map_singleton, CheckResult.concat_cons, CheckResult.concat_nil,
        CheckResult.merge_empty]
      rfl
  | join left right hleft hright =>
      rw [result, hleft, hright, files, List.map_append, CheckResult.concat_append]

end Schedule

namespace Setup

theorem check_eq_of_perm
    (setup : Setup) {files others : List String} (h : files.Perm others) :
    setup.check files = setup.check others := by
  have hdiagnostics : (setup.check files).diagnostics = (setup.check others).diagnostics := by
    rw [diagnostics_check, diagnostics_check]
    apply mergeSort_flatMap_eq_of_perm comparesBy_diagnostic setup.namesFile_diagnostics _ h
    intro left right hkey
    exact congrArg (fun key => (ofLex key).1) hkey
  have hsuppressed : (setup.check files).suppressed = (setup.check others).suppressed := by
    rw [suppressed_check, suppressed_check]
    apply mergeSort_flatMap_eq_of_perm comparesBy_suppressed setup.namesFile_suppressed _ h
    intro left right hkey
    exact congrArg (fun key => (ofLex key).1) hkey
  have hfailures : (setup.check files).failures = (setup.check others).failures := by
    rw [failures_check, failures_check]
    exact mergeSort_flatMap_eq_of_perm comparesBy_failure setup.namesFile_failures
      (fun _ _ hkey => hkey) h
  have hscanned : (setup.check files).scanned = (setup.check others).scanned := by
    rw [scanned_check, scanned_check]
    exact (h.map _).sum_nat
  cases hresult : setup.check files
  cases hother : setup.check others
  simp_all

/-- The result of a check, with the order inside its lists, is the same for every
schedule of the files and every order in which they are listed.  Diagnostics are sorted
by file, line and column, failures by file. -/
theorem check_independent_of_schedule
    (setup : Setup) (schedule : Schedule) {files : List String}
    (h : schedule.files.Perm files) :
    (schedule.result setup).sort = setup.check files ∧
      (setup.check files).diagnostics.Pairwise
        (fun left right => left.sortKey ≤ right.sortKey) ∧
      (setup.check files).suppressed.Pairwise
        (fun left right => left.diagnostic.sortKey ≤ right.diagnostic.sortKey) ∧
      (setup.check files).failures.Pairwise
        (fun left right => left.file ≤ right.file) := by
  refine ⟨?_, ?_, ?_, ?_⟩
  · rw [schedule.result_eq_concat, ← setup.check_eq_sort_concat]
    exact setup.check_eq_of_perm h
  · rw [diagnostics_check]
    exact pairwise_key_mergeSort comparesBy_diagnostic _
  · rw [suppressed_check]
    exact pairwise_key_mergeSort comparesBy_suppressed _
  · rw [failures_check]
    exact pairwise_key_mergeSort comparesBy_failure _

end Setup

/-! ## A sample -/

/-- The number of bytes ahead of each line of the sample. -/
def sampleOffset : Nat → Nat
  | 0 => 0
  | 1 => 7
  | 2 => 42
  | _ => 58

/-- A node of the sample that stands on one line. -/
def sampleNode
    (named : Bool) (kind : String) (field : Option String) (row col width : Nat)
    (children : List Source.Node) : Source.Node :=
  .mk
    { kind, named, missing := false, field
      startByte := sampleOffset row + col, endByte := sampleOffset row + col + width
      startRow := row, startCol := col, endRow := row, endCol := col + width }
    children

/-- The empty block of the sample at a place. -/
def sampleBlock (row col : Nat) : Source.Node :=
  sampleNode true "statement_block" (some "body") row col 2
    [sampleNode false "\x7b" none row col 1 [],
      sampleNode false "\x7d" none row (col + 1) 1 []]

/-- The try statement of the sample on a line. -/
def sampleTry (row : Nat) : Source.Node :=
  sampleNode true "try_statement" none row 0 15
    [sampleNode false "try" none row 0 3 [],
      sampleBlock row 4,
      sampleNode true "catch_clause" (some "handler") row 7 8
        [sampleNode false "catch" none row 7 5 [], sampleBlock row 13]]

/-- A source with a broken character and a carriage return on its first line, a directive
on the second line, and a hiding handler on each of the two lines after it. -/
def sampleSource : List UInt8 :=
  Text.encode "// " ++ [0xE2, 0x82] ++
    Text.encode
      "\r\n// swallowcheck:ignore-next-line *\ntry \x7b\x7d catch \x7b\x7d\ntry \x7b\x7d catch \x7b\x7d"

/-- The parse tree of the sample. -/
def sampleTree : Source.Tree :=
  { root :=
      .mk
        { kind := "program", named := true, missing := false, field := none
          startByte := 0, endByte := 73, startRow := 0, startCol := 0, endRow := 3
          endCol := 15 }
        [sampleNode true "comment" none 0 0 5 [], sampleNode true "comment" none 1 0 34 [],
          sampleTry 2, sampleTry 3]
    hasError := false }

/-- The sample among other files, with a configuration that leaves everything out. -/
def sampleSetup : Setup :=
  { config := .empty
    workspace :=
      { files := Files.FileSystem.empty.insert ["a.js"] (.file sampleSource), base := [] }
    parser := fun _ _ => sampleTree }

/-- A schedule of two files, one of them listed twice. -/
def sampleSchedule : Schedule :=
  .join (.join .idle (.file "a.js")) (.join (.join (.file "gone.js") .idle) (.file "a.js"))

theorem sampleSchedule_check :
    sampleSchedule.files.Perm ["a.js", "a.js", "gone.js"] ∧
      (sampleSchedule.result sampleSetup).sort =
        sampleSetup.check ["a.js", "a.js", "gone.js"] := by
  have hperm : sampleSchedule.files.Perm ["a.js", "a.js", "gone.js"] := by decide
  obtain ⟨hresult, _⟩ := sampleSetup.check_independent_of_schedule sampleSchedule hperm
  exact ⟨hperm, hresult⟩

end HandlerLint.Check
