import HandlerLint.Report.Document

/-!
# The SARIF report

The static analysis interchange format, version 2.1.0: one run of one tool with one
rule, and a result for each active diagnostic.  Suppressed diagnostics are not
reported.  Lines and columns are raised to one where they are smaller.
-/

namespace HandlerLint.Report.Sarif

/-- The version of the format. -/
def formatVersion : String :=
  "2.1.0"

/-- Where the format is defined. -/
def schemaUri : String :=
  "https://raw.githubusercontent.com/oasis-tcs/sarif-spec/master/Schemata/sarif-schema-2.1.0.json"

/-- The name of the tool. -/
def toolName : String :=
  "swallowcheck"

/-- Where the tool is described. -/
def informationUri : String :=
  "https://github.com/zen-systems/swallowcheck"

/-- The level that the format gives to a severity. -/
def level : Severity → String
  | .error => "error"
  | .warning => "warning"
  | .info => "note"

/-- The description of a rule. -/
structure RuleEntry where
  id : String
  name : String
  shortDescription : String
  fullDescription : String
  help : String
  level : String
deriving DecidableEq, Repr

/-- A stretch of a file, with lines and columns from one. -/
structure Region where
  startLine : Nat
  startColumn : Nat
  endLine : Nat
  endColumn : Nat
deriving DecidableEq, Repr

/-- A place in a file. -/
structure Place where
  uri : String
  region : Region
deriving DecidableEq, Repr

/-- The result for one diagnostic. -/
structure Entry where
  ruleId : String
  level : String
  message : String
  locations : List Place
deriving DecidableEq, Repr

/-- What was run. -/
structure Tool where
  name : String
  version : String
  informationUri : String
  rules : List RuleEntry
deriving DecidableEq, Repr

/-- One run of a tool. -/
structure Run where
  tool : Tool
  results : List Entry
deriving DecidableEq, Repr

/-- A whole report. -/
structure Document where
  version : String
  schema : String
  runs : List Run
deriving DecidableEq, Repr

/-! ## From a result -/

/-- The rule, with the severity of its diagnostics as its default level. -/
def RuleEntry.ofSeverity (severity : Severity) : RuleEntry :=
  { id := HandlerLint.ruleId
    name := "AvoidHidingExceptions"
    shortDescription := "Detects exception handlers that hide the caught exception"
    fullDescription := ruleMessage
    help := ruleCorrection
    level := Sarif.level severity }

/-- The region of a span. -/
def Region.ofSpan (span : Span) : Region :=
  { startLine := max span.startLine 1
    startColumn := max span.startCol 1
    endLine := max span.endLine 1
    endColumn := max span.endCol 1 }

/-- The result for a diagnostic. -/
def Entry.ofDiagnostic (base : String) (diagnostic : Diagnostic) : Entry :=
  { ruleId := diagnostic.ruleId
    level := Sarif.level diagnostic.severity
    message := diagnostic.message
    locations :=
      [ { uri := Path.relativeName base diagnostic.file
          region := .ofSpan diagnostic.location.span } ] }

/-- The report of a result. -/
def Document.ofResult (base : String) (result : CheckResult) (severity : Severity) :
    Document :=
  { version := formatVersion
    schema := schemaUri
    runs :=
      [ { tool :=
            { name := toolName
              version := toolVersion
              informationUri := Sarif.informationUri
              rules := [.ofSeverity severity] }
          results := result.diagnostics.map (.ofDiagnostic base) } ] }

/-! ## Encoding -/

/-- A message as JSON. -/
def messageJson (text : String) : Json :=
  .object [("text", .string text)]

/-- A rule as JSON. -/
def RuleEntry.toJson (rule : RuleEntry) : Json :=
  .object
    [ ("id", .string rule.id)
    , ("name", .string rule.name)
    , ("shortDescription", messageJson rule.shortDescription)
    , ("fullDescription", messageJson rule.fullDescription)
    , ("help", messageJson rule.help)
    , ("defaultConfiguration", .object [("level", .string rule.level)]) ]

/-- A region as JSON. -/
def Region.toJson (region : Region) : Json :=
  .object
    [ ("startLine", .number region.startLine)
    , ("startColumn", .number region.startColumn)
    , ("endLine", .number region.endLine)
    , ("endColumn", .number region.endColumn) ]

/-- A place as JSON. -/
def Place.toJson (place : Place) : Json :=
  .object
    [ ("physicalLocation", .object
        [ ("artifactLocation", .object [("uri", .string place.uri)])
        , ("region", place.region.toJson) ]) ]

/-- A result as JSON. -/
def Entry.toJson (entry : Entry) : Json :=
  .object
    [ ("ruleId", .string entry.ruleId)
    , ("level", .string entry.level)
    , ("message", messageJson entry.message)
    , ("locations", .array (entry.locations.map Place.toJson)) ]

/-- A tool as JSON. -/
def Tool.toJson (tool : Tool) : Json :=
  .object
    [ ("driver", .object
        [ ("name", .string tool.name)
        , ("version", .string tool.version)
        , ("informationUri", .string tool.informationUri)
        , ("rules", .array (tool.rules.map RuleEntry.toJson)) ]) ]

/-- A run as JSON. -/
def Run.toJson (run : Run) : Json :=
  .object [("tool", run.tool.toJson), ("results", .array (run.results.map Entry.toJson))]

/-- A report as JSON. -/
def Document.toJson (document : Document) : Json :=
  .object
    [ ("version", .string document.version)
    , ("$schema", .string document.schema)
    , ("runs", .array (document.runs.map Run.toJson)) ]

/-! ## Decoding -/

/-- The message that a JSON value describes. -/
def message? (json : Json) : Option String := do
  (← json.member? "text").string?

/-- The rule that a JSON value describes. -/
def RuleEntry.ofJson? (json : Json) : Option RuleEntry := do
  return {
    id := ← (← json.member? "id").string?
    name := ← (← json.member? "name").string?
    shortDescription := ← message? (← json.member? "shortDescription")
    fullDescription := ← message? (← json.member? "fullDescription")
    help := ← message? (← json.member? "help")
    level := ← (← (← json.member? "defaultConfiguration").member? "level").string? }

/-- The region that a JSON value describes. -/
def Region.ofJson? (json : Json) : Option Region := do
  return {
    startLine := ← (← json.member? "startLine").number?
    startColumn := ← (← json.member? "startColumn").number?
    endLine := ← (← json.member? "endLine").number?
    endColumn := ← (← json.member? "endColumn").number? }

/-- The place that a JSON value describes. -/
def Place.ofJson? (json : Json) : Option Place := do
  let physical ← json.member? "physicalLocation"
  return {
    uri := ← (← (← physical.member? "artifactLocation").member? "uri").string?
    region := ← Region.ofJson? (← physical.member? "region") }

/-- The result that a JSON value describes. -/
def Entry.ofJson? (json : Json) : Option Entry := do
  return {
    ruleId := ← (← json.member? "ruleId").string?
    level := ← (← json.member? "level").string?
    message := ← message? (← json.member? "message")
    locations := ← (← (← json.member? "locations").array?).mapM Place.ofJson? }

/-- The tool that a JSON value describes. -/
def Tool.ofJson? (json : Json) : Option Tool := do
  let driver ← json.member? "driver"
  return {
    name := ← (← driver.member? "name").string?
    version := ← (← driver.member? "version").string?
    informationUri := ← (← driver.member? "informationUri").string?
    rules := ← (← (← driver.member? "rules").array?).mapM RuleEntry.ofJson? }

/-- The run that a JSON value describes. -/
def Run.ofJson? (json : Json) : Option Run := do
  return {
    tool := ← Tool.ofJson? (← json.member? "tool")
    results := ← (← (← json.member? "results").array?).mapM Entry.ofJson? }

/-- The report that a JSON value describes. -/
def Document.ofJson? (json : Json) : Option Document := do
  return {
    version := ← (← json.member? "version").string?
    schema := ← (← json.member? "$schema").string?
    runs := ← (← (← json.member? "runs").array?).mapM Run.ofJson? }

/-! ## Text -/

/-- The SARIF report of a result. -/
def text (base : String) (result : CheckResult) (severity : Severity) : String :=
  (Document.ofResult base result severity).toJson.render ++ "\n"

end HandlerLint.Report.Sarif
