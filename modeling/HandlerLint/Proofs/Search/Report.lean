import HandlerLint.Proofs.Lowering.Simulation
import HandlerLint.Proofs.Search.Follow

/-!
# What the rule reports of a parse tree

From a parse tree to its diagnostics: each visited handler that hides its exception is
reported, once, at its own span, and nothing else is reported.  The reports come in the
order in which the search passes the handlers.
-/

namespace HandlerLint.Search

open Source
open Lowering

/-- Where the search of a parse tree starts. -/
def rootSites (language : Language) (root : Node) : List Site :=
  sitesBelow language [] root

/-- The handlers of a parse tree that hide their exception, as the search passes them. -/
def hidingSites (context : Context) (root : Node) : List Site :=
  (tour context.language (rootSites context.language root)).filterMap (Stop.hiding? context)

/-- What a search of a whole parse tree passes agrees with the model of the tree. -/
theorem follows_of_lower_eq_ok
    {language : Language} {path : String} {source : List UInt8} {tree : Tree}
    {model : SyntaxTree}
    (htidy : TidyTries language (rootSites language tree.root))
    (h : lower language path source tree = .ok model) :
    model.path = path ∧
      Follows { language, source } (tour language (rootSites language tree.root))
        (findingsIn model.statements) (constructsIn model.statements) := by
  unfold lower at h
  rw [lowerRoot_eq_statementsOf] at h
  cases hstatements : statementsOf { language, source } tree.root with
  | error error =>
      rw [hstatements] at h
      cases h
  | ok statements =>
      rw [hstatements] at h
      cases h
      refine ⟨rfl, ?_⟩
      unfold statementsOf at hstatements
      rw [← map_item_sitesBelow language []] at hstatements
      exact follows_of_lowerItems_eq_ok htidy hstatements

theorem mem_hidingSites_iff
    {context : Context} {root : Node} {handler : Site} :
    handler ∈ hidingSites context root ↔
      ∃ attempt, Visited context.language (rootSites context.language root) attempt ∧
        attempt.role = .attempt ∧
        handler ∈ attempt.childrenAs context.language .handler ∧
        hidesException context handler.node = true := by
  unfold hidingSites
  rw [List.mem_filterMap]
  constructor
  · rintro ⟨stop, hstop, hhiding⟩
    cases stop with
    | node site => cases hhiding
    | clause attempt other =>
        obtain ⟨hvisited, hrole, hmem⟩ := mem_tour_clause_iff.mp hstop
        rw [Stop.hiding?] at hhiding
        split at hhiding
        · next hhides =>
            cases hhiding
            exact ⟨attempt, hvisited, hrole, hmem, hhides⟩
        · cases hhiding
  · rintro ⟨attempt, hvisited, hrole, hmem, hhides⟩
    refine ⟨.clause attempt handler, mem_tour_clause_iff.mpr ⟨hvisited, hrole, hmem⟩, ?_⟩
    rw [Stop.hiding?, if_pos hhides]

/-- No handler is listed twice. -/
theorem nodup_hidingSites
    {context : Context} {root : Node}
    (htidy : TidyTries context.language (rootSites context.language root)) :
    ((hidingSites context root).map Site.address).Nodup := by
  apply nodup_address_filterMap_tour htidy (apartSites_sitesBelow context.language [] root)
  intro stop site hsite
  cases stop with
  | node other => cases hsite
  | clause attempt handler =>
      rw [Stop.hiding?] at hsite
      split at hsite
      · cases hsite
        rfl
      · cases hsite

/-- For a parse tree with tidy try nodes that could be lowered, the rule reports the
hiding handlers of visited try nodes: each of them once, at its span and in the file, in
the order in which the search passes them, and it returns how many there are. -/
theorem run_reports_hiding_handlers
    {language : Language} {path : String} {source : List UInt8} {tree : Tree}
    {model : SyntaxTree}
    (htidy : TidyTries language (rootSites language tree.root))
    (h : lower language path source tree = .ok model) :
    ((hidingSites { language, source } tree.root).map Site.address).Nodup ∧
      (∀ handler, handler ∈ hidingSites { language, source } tree.root ↔
        ∃ attempt, Visited language (rootSites language tree.root) attempt ∧
          attempt.role = .attempt ∧
          handler ∈ attempt.childrenAs language .handler ∧
          hidesException { language, source } handler.node = true) ∧
      ∀ rule : Rule,
        rule.run model =
            (hidingSites { language, source } tree.root).map (fun handler =>
              { ruleId := ruleId
                message := ruleMessage
                correction := ruleCorrection
                severity := rule.severity
                location := { file := path, span := handler.node.span } }) ∧
          ∀ (σ : Type) (accept : σ → Diagnostic → σ) (start : σ),
            rule.runInto model accept start =
              ((rule.run model).foldl accept start,
                (hidingSites { language, source } tree.root).length) := by
  obtain ⟨hpath, hfollows⟩ := follows_of_lower_eq_ok htidy h
  have hspans :
      model.hidingHandlers.map (·.clause.span) =
        (hidingSites { language, source } tree.root).map (·.node.span) := by
    unfold SyntaxTree.hidingHandlers
    rw [model.classifyAll_eq_findingsIn]
    exact hfollows.findings
  have hlength :
      model.hidingHandlers.length = (hidingSites { language, source } tree.root).length := by
    have := congrArg List.length hspans
    rwa [List.length_map, List.length_map] at this
  refine ⟨nodup_hidingSites htidy, fun handler => mem_hidingSites_iff, ?_⟩
  intro rule
  refine ⟨?_, ?_⟩
  · have hreports := congrArg (List.map fun span =>
      { ruleId := ruleId
        message := ruleMessage
        correction := ruleCorrection
        severity := rule.severity
        location := { file := path, span } : Diagnostic }) hspans
    rw [List.map_map, List.map_map] at hreports
    rw [Rule.run, hpath]
    exact hreports
  · intro σ accept start
    rw [rule.runInto_eq, Rule.run, List.length_map, hlength]

theorem exists_eq_ok_of_isOk
    {ε α : Type} {result : Except ε α} (h : result.isOk = true) :
    ∃ value, result = .ok value := by
  cases result with
  | error error => cases h
  | ok value => exact ⟨value, rfl⟩

/-- A named node on the first line of a file. -/
def lineNode
    (kind : String) (field : Option String) (start stop : Nat) (children : List Node) :
    Node :=
  .mk
    { kind, named := true, missing := false, field, startByte := start, endByte := stop,
      startRow := 0, startCol := start, endRow := 0, endCol := stop }
    children

/-- A token on the first line of a file, which the grammar does not name. -/
def lineToken (kind : String) (start : Nat) : Node :=
  .mk
    { kind, named := false, missing := false, field := none, startByte := start,
      endByte := start + kind.length, startRow := 0, startCol := start, endRow := 0,
      endCol := start + kind.length }
    []

/-- A source with a handler inside a handler. -/
def nestedSource : List UInt8 :=
  "try {} catch (e) { try {} catch {} throw e }".toUTF8.toList

/-- The parse tree of a source with a handler inside a handler. -/
def nestedTree : Tree :=
  { root :=
      lineNode "program" none 0 44
        [lineNode "try_statement" none 0 44
          [lineNode "statement_block" (some "body") 4 6 [],
            lineNode "catch_clause" (some "handler") 7 44
              [lineNode "identifier" (some "parameter") 14 15 [],
                lineNode "statement_block" (some "body") 17 44
                  [lineNode "try_statement" none 19 34
                    [lineNode "statement_block" (some "body") 23 25 [],
                      lineNode "catch_clause" (some "handler") 26 34
                        [lineNode "statement_block" (some "body") 32 34 []]],
                    lineNode "throw_statement" none 35 42
                      [lineNode "identifier" none 41 42 []]]]]]
    hasError := false }

/-- Of the two handlers only the inner one is reported, since the outer one throws. -/
theorem run_reports_inner_handler :
    TidyTries .javascript (rootSites .javascript nestedTree.root) ∧
      ∃ model, lower .javascript "a.js" nestedSource nestedTree = .ok model ∧
        ∀ rule : Rule, (rule.run model).map Diagnostic.column = [27] := by
  have htidy : TidyTries .javascript (rootSites .javascript nestedTree.root) := by
    decide +kernel
  have hok : (lower .javascript "a.js" nestedSource nestedTree).isOk = true := by
    decide +kernel
  have hcolumns :
      (hidingSites { language := .javascript, source := nestedSource } nestedTree.root).map
        (·.node.span.startCol) = [27] := by
    decide +kernel
  obtain ⟨model, hmodel⟩ := exists_eq_ok_of_isOk hok
  refine ⟨htidy, model, hmodel, ?_⟩
  intro rule
  obtain ⟨_, _, hreports⟩ := run_reports_hiding_handlers htidy hmodel
  rw [(hreports rule).1, List.map_map]
  exact hcolumns

end HandlerLint.Search
