import HandlerLint.Proofs.Json.RoundTrip
import HandlerLint.Report.Document

/-!
# Reading a report back

A report is written as one JSON value on a text of its own.  Lists that are empty are left
out and read back as empty.  A reason that is empty is left out as well, but has no
stand-in on the way back: such a report is a JSON document that describes no report.

So a report reads back exactly if every suppression in it has a reason.
-/

namespace HandlerLint.Report

/-! ## Lists of entries -/

section Lists

variable {α : Type} {encode : α → Json} {decode? : Json → Option α}

theorem mapM_decode?_eq_some
    {entries : List α} (h : ∀ entry ∈ entries, decode? (encode entry) = some entry) :
    (entries.map encode).mapM decode? = some entries := by
  induction entries with
  | nil => rfl
  | cons entry entries ih =>
      have hentry := h entry (List.mem_cons_self ..)
      have hentries := ih fun other hother => h other (List.mem_cons_of_mem _ hother)
      rw [List.map_cons, List.mapM_cons, hentry, hentries]
      rfl

theorem mapM_decode?_eq_none
    {entries : List α} {entry : α} (hmem : entry ∈ entries)
    (h : decode? (encode entry) = none) :
    (entries.map encode).mapM decode? = none := by
  induction entries with
  | nil => exact absurd hmem (List.not_mem_nil)
  | cons first entries ih =>
      rw [List.map_cons, List.mapM_cons]
      rcases List.mem_cons.mp hmem with rfl | hlater
      · rw [h]
        rfl
      · rw [ih hlater]
        rcases decode? (encode first) with _ | read
        · rfl
        · rfl

end Lists

/-! ## Entries -/

theorem DiagnosticEntry.ofJson?_toJson
    (entry : DiagnosticEntry) :
    ofJson? entry.toJson = some entry := by
  simp [ofJson?, toJson, Json.member?, Json.string?, Json.number?]

theorem FailureEntry.ofJson?_toJson
    (entry : FailureEntry) :
    ofJson? entry.toJson = some entry := by
  simp [ofJson?, toJson, Json.member?, Json.string?]

/-- A suppression reads back if it has a reason. -/
theorem SuppressionEntry.ofJson?_toJson
    (entry : SuppressionEntry) :
    ofJson? entry.toJson = if entry.reason = "" then none else some entry := by
  by_cases hreason : entry.reason = ""
  · simp [ofJson?, toJson, Json.member?, Json.string?, Json.number?, hreason]
  · have hnonempty : entry.reason.isEmpty = false := by
      simpa [String.isEmpty_iff] using hreason
    simp [ofJson?, toJson, Json.member?, Json.string?, Json.number?, hreason, hnonempty]

/-- A suppressed diagnostic reads back if its suppression does. -/
theorem SuppressedEntry.ofJson?_toJson
    (entry : SuppressedEntry) :
    ofJson? entry.toJson = if entry.suppression.reason = "" then none else some entry := by
  have hdiagnostic := entry.diagnostic.ofJson?_toJson
  have hsuppression := entry.suppression.ofJson?_toJson
  by_cases hreason : entry.suppression.reason = ""
  · simp [ofJson?, toJson, Json.member?, hsuppression, hreason]
  · simp [ofJson?, toJson, Json.member?, hdiagnostic, hsuppression, hreason]

/-! ## Reports -/

/-- The report that a text describes. -/
def Document.read? (text : String) : Option Document :=
  (Json.parse? text).bind ofJson?

/-- Whether every suppression of a report has a reason. -/
def Document.Explained (document : Document) : Prop :=
  ∀ entry ∈ document.suppressed, entry.suppression.reason ≠ ""

theorem filter_listMember_of_ne
    {name other : String} (h : (other == name) = false) (items : List Json) :
    (listMember other items).filter (·.1 == name) = [] := by
  rcases items with _ | ⟨item, items⟩
  · rfl
  · simp [listMember, h]

/-- A list that is left out where it is empty is found again in any case. -/
theorem memberOr?_listMember
    {name : String} {before after : List (String × Json)} (items : List Json)
    (hbefore : before.filter (·.1 == name) = []) (hafter : after.filter (·.1 == name) = []) :
    Json.memberOr? name (.object (before ++ listMember name items ++ after)) (.array []) =
      some (.array items) := by
  rcases items with _ | ⟨item, items⟩
  · simp only [Json.memberOr?, listMember, List.filter_append, hbefore, hafter]
    rfl
  · simp only [Json.memberOr?, listMember, List.filter_append, hbefore, hafter]
    simp

/-- The members that are written for every report. -/
def Document.steadyMembers (document : Document) : List (String × Json) :=
  [ ("version", Json.string document.version)
  , ("path", .string document.path)
  , ("passed", .bool document.passed)
  , ("fail_on", .string document.failOn)
  , ("files_scanned", .number document.filesScanned)
  , ("diagnostics", .array (document.diagnostics.map DiagnosticEntry.toJson))
  , ("suppressed_count", .number document.suppressedCount) ]

theorem Document.member?_toJson
    (document : Document) {name : String}
    (hsuppressed : ("suppressed" == name) = false) (hfailures : ("failures" == name) = false) :
    document.toJson.member? name = (Json.object document.steadyMembers).member? name := by
  simp only [toJson, steadyMembers, Json.member?, List.filter_append,
    filter_listMember_of_ne hsuppressed, filter_listMember_of_ne hfailures, List.append_nil]
  rw [← List.filter_append]
  rfl

/-- All but the suppressed diagnostics of a report is read as it was. -/
theorem Document.ofJson?_toJson
    (document : Document) :
    ofJson? document.toJson =
      ((document.suppressed.map SuppressedEntry.toJson).mapM SuppressedEntry.ofJson?).map
        fun suppressed => { document with suppressed } := by
  have hdiagnostics :
      (document.diagnostics.map DiagnosticEntry.toJson).mapM DiagnosticEntry.ofJson? =
        some document.diagnostics :=
    mapM_decode?_eq_some fun entry _ => entry.ofJson?_toJson
  have hfailures :
      (document.failures.map FailureEntry.toJson).mapM FailureEntry.ofJson? =
        some document.failures :=
    mapM_decode?_eq_some fun entry _ => entry.ofJson?_toJson
  have hsuppressedMember :
      document.toJson.memberOr? "suppressed" (.array []) =
        some (.array (document.suppressed.map SuppressedEntry.toJson)) := by
    rw [toJson, List.append_assoc]
    apply memberOr?_listMember
    · rfl
    · rw [List.filter_append, filter_listMember_of_ne rfl]
      rfl
  have hfailuresMember :
      document.toJson.memberOr? "failures" (.array []) =
        some (.array (document.failures.map FailureEntry.toJson)) := by
    rw [toJson, ← List.append_nil (listMember "failures" _), ← List.append_assoc]
    apply memberOr?_listMember
    · rw [List.filter_append, List.filter_append, filter_listMember_of_ne rfl]
      rfl
    · rfl
  have hversion : document.toJson.member? "version" = some (.string document.version) :=
    document.member?_toJson rfl rfl
  have hpath : document.toJson.member? "path" = some (.string document.path) :=
    document.member?_toJson rfl rfl
  have hpassed : document.toJson.member? "passed" = some (.bool document.passed) :=
    document.member?_toJson rfl rfl
  have hfailOn : document.toJson.member? "fail_on" = some (.string document.failOn) :=
    document.member?_toJson rfl rfl
  have hscanned :
      document.toJson.member? "files_scanned" = some (.number document.filesScanned) :=
    document.member?_toJson rfl rfl
  have hdiagnosticsMember :
      document.toJson.member? "diagnostics" =
        some (.array (document.diagnostics.map DiagnosticEntry.toJson)) :=
    document.member?_toJson rfl rfl
  have hcount :
      document.toJson.member? "suppressed_count" = some (.number document.suppressedCount) :=
    document.member?_toJson rfl rfl
  rw [ofJson?, Option.map_eq_bind]
  simp only [hversion, hpath, hpassed, hfailOn, hscanned, hdiagnosticsMember,
    hsuppressedMember, hcount, hfailuresMember, Json.string?, Json.bool?, Json.number?,
    Json.array?, Option.bind_eq_bind, Option.bind_some, hdiagnostics, hfailures,
    Option.pure_def, Function.comp_def]

theorem Document.ofJson?_toJson_of_explained
    {document : Document} (h : document.Explained) :
    ofJson? document.toJson = some document := by
  have hsuppressed :
      (document.suppressed.map SuppressedEntry.toJson).mapM SuppressedEntry.ofJson? =
        some document.suppressed := by
    apply mapM_decode?_eq_some
    intro entry hentry
    rw [entry.ofJson?_toJson, if_neg (h entry hentry)]
  rw [document.ofJson?_toJson, hsuppressed]
  rfl

theorem Document.ofJson?_toJson_of_not_explained
    {document : Document} (h : ¬document.Explained) :
    ofJson? document.toJson = none := by
  simp only [Explained, ne_eq, not_forall, not_not] at h
  obtain ⟨entry, hentry, hreason⟩ := h
  have hsuppressed :
      (document.suppressed.map SuppressedEntry.toJson).mapM SuppressedEntry.ofJson? = none := by
    apply mapM_decode?_eq_none hentry
    rw [entry.ofJson?_toJson, if_pos hreason]
  rw [document.ofJson?_toJson, hsuppressed]
  rfl

/-! ## Written reports -/

theorem explained_ofResult_iff
    {base : String} {result : CheckResult} {failOn : Severity} :
    (Document.ofResult base result failOn).Explained ↔
      ∀ entry ∈ result.suppressed, entry.suppression.reason ≠ "" := by
  simp [Document.Explained, Document.ofResult, SuppressionEntry.ofSuppression]

theorem parse?_jsonText
    (base : String) (result : CheckResult) (failOn : Severity) :
    Json.parse? (jsonText base result failOn) =
      some (Document.ofResult base result failOn).toJson := by
  have hspace : ∀ c ∈ ['\n'], Json.isSpace c = true := by simp [Json.isSpace]
  exact Json.parse?_render_append _ hspace

/-- The report of a result is one JSON value and a line feed after it.  It is read back as
the report that was written if every suppression in it has a reason, and as no report
otherwise. -/
theorem json_report_reads_back_iff_explained
    (base : String) (result : CheckResult) (failOn : Severity) :
    (∃ text, jsonText base result failOn = text ++ "\n" ∧
        Json.parse? text = some (Document.ofResult base result failOn).toJson) ∧
      (Document.read? (jsonText base result failOn) =
          some (Document.ofResult base result failOn) ↔
        ∀ entry ∈ result.suppressed, entry.suppression.reason ≠ "") ∧
      ((∃ entry ∈ result.suppressed, entry.suppression.reason = "") →
        Document.read? (jsonText base result failOn) = none) := by
  have hread : Document.read? (jsonText base result failOn) =
      Document.ofJson? (Document.ofResult base result failOn).toJson := by
    rw [Document.read?, parse?_jsonText]
    rfl
  have hnone : (∃ entry ∈ result.suppressed, entry.suppression.reason = "") →
      Document.read? (jsonText base result failOn) = none := by
    rintro ⟨entry, hentry, hreason⟩
    rw [hread]
    apply Document.ofJson?_toJson_of_not_explained
    intro hexplained
    exact explained_ofResult_iff.mp hexplained entry hentry hreason
  refine ⟨⟨_, rfl, Json.parse?_render _⟩, ⟨?_, ?_⟩, hnone⟩
  · intro hsome entry hentry hreason
    rw [hnone ⟨entry, hentry, hreason⟩] at hsome
    exact Option.some_ne_none _ hsome.symm
  · intro hreasons
    rw [hread]
    exact Document.ofJson?_toJson_of_explained (explained_ofResult_iff.mpr hreasons)

/-- A result with one diagnostic that a directive without a reason suppresses. -/
def unexplainedResult : CheckResult :=
  { diagnostics := []
    suppressed :=
      [{ diagnostic :=
          { ruleId := "avoid_hiding_exceptions"
            message := "hidden"
            correction := "rethrow"
            severity := .warning
            location :=
              { file := "/work/a.py"
                span :=
                  { startByte := 17, endByte := 38, startLine := 3, startCol := 1,
                    endLine := 4, endCol := 9 } } }
         suppression :=
          { rule := "*", reason := "", file := "/work/a.py", line := 2,
            coverage := .nextLine } }]
    failures := []
    scanned := 1 }

/-- The report of that result is written and cannot be read back. -/
theorem unexplainedResult_report_unreadable :
    Document.read? (jsonText "/work" unexplainedResult .warning) = none := by
  obtain ⟨_, _, hnone⟩ :=
    json_report_reads_back_iff_explained "/work" unexplainedResult .warning
  exact hnone ⟨_, List.mem_singleton_self _, rfl⟩

end HandlerLint.Report
