import HandlerLint.Proofs.Diagnosis.Findings
import HandlerLint.Proofs.Lowering.Turns

/-!
# The loops end

A file is searched in two passes that both keep pushing new work while they take work off
their stacks: the machine that lowers the parse tree, and the walk over the lowered model.
For the machine the load of its state says why it ends; every turn makes it smaller.  For the
walk it is the number of statements and handlers on the stack and inside them, which goes down
by one with every pop: none of them is pushed twice.  So the walk takes exactly as many pops
as the file has statements and handlers.
-/

namespace HandlerLint

/-! ## The walk, pop by pop -/

/-- What the walk over a stack of work has found after some pops, and what is then left on the
stack. -/
def afterPops : Nat → List Work → List Finding × List Work
  | 0, stack => ([], stack)
  | _ + 1, [] => ([], [])
  | count + 1, work :: stack =>
      let later := afterPops count (work.perform stack).2
      ((work.perform stack).1.toList ++ later.1, later.2)

theorem Statement.weight_pos
    (statement : Statement) :
    0 < statement.weight := by
  cases statement <;> simp only [Statement.weight] <;> omega

theorem Work.weight_pos
    (work : Work) :
    0 < work.weight := by
  cases work with
  | statement pending => exact pending.weight_pos
  | clause construct handler => exact Nat.one_pos

theorem stackWeight_eq_zero_iff
    {stack : List Work} :
    stackWeight stack = 0 ↔ stack = [] := by
  cases stack with
  | nil => simp [stackWeight]
  | cons work stack =>
      have hpos := work.weight_pos
      simp only [stackWeight, reduceCtorEq, iff_false]
      omega

/-- Every pop takes one off the weight of the stack, until nothing is left. -/
theorem stackWeight_afterPops
    (count : Nat) (stack : List Work) :
    stackWeight (afterPops count stack).2 = stackWeight stack - count := by
  induction count generalizing stack with
  | zero => rfl
  | succ count ih =>
      cases stack with
      | nil => simp [afterPops, stackWeight]
      | cons work stack =>
          have hpop := work.stackWeight_perform stack
          rw [afterPops, ih]
          omega

/-- What was found and what is left stand for what the stack stood for. -/
theorem findings_afterPops
    (count : Nat) (stack : List Work) :
    (afterPops count stack).1 ++ stackFindings (afterPops count stack).2 =
      stackFindings stack := by
  induction count generalizing stack with
  | zero => rfl
  | succ count ih =>
      cases stack with
      | nil => rfl
      | cons work stack =>
          rw [afterPops, List.append_assoc, ih, work.stackFindings_perform]

/-- After as many pops as the stack weighs the walk is over and has found what there is to
find. -/
theorem afterPops_stackWeight
    (stack : List Work) :
    afterPops (stackWeight stack) stack = (drain stack, []) := by
  have hleft : (afterPops (stackWeight stack) stack).2 = [] := by
    rw [← stackWeight_eq_zero_iff, stackWeight_afterPops, Nat.sub_self]
  have hfound := findings_afterPops (stackWeight stack) stack
  rw [hleft, ← drain_eq_stackFindings stack] at hfound
  refine Prod.ext ?_ hleft
  rw [← hfound]
  exact (List.append_nil _).symm

/-- Before that there is something left to pop. -/
theorem afterPops_ne_nil
    {count : Nat} {stack : List Work} (h : count < stackWeight stack) :
    (afterPops count stack).2 ≠ [] := by
  intro hnone
  rw [← stackWeight_eq_zero_iff, stackWeight_afterPops] at hnone
  omega

namespace Search

open Lowering Source

/-! ## Both passes -/

/-- The machine has room for the root, and its load is then less than the weight of the parse
tree. -/
theorem exists_openFrame_root
    (context : Context) (root : Node) :
    ∃ machine, Machine.empty.openFrame root (context.language.significant root) false .root =
        .ok machine ∧
      machine.load < root.weight := by
  refine ⟨_, Machine.openFrame_root .., ?_⟩
  have hchildren := context.language.weightList_significant_le root
  rw [Node.weight_eq]
  simp only [Machine.empty, Machine.load, framesLoad, Frame.load, triesLoad]
  omega

/-- Both passes over a file end.  Each turn of either loop of the machine makes its load
smaller, from the root on, and so does a turn of the main loop together with the turns of the
other loop within it.  The turns come back to the main loop in the states of the machine, and
they end with what the machine gives after fewer turns than the parse tree weighs.  Each pop
of the walk takes one off the weight of its stack, so the walk is over after exactly as many
pops as the file has statements and handlers. -/
theorem machine_and_walk_end
    (context : Context) (root : Node) (tree : SyntaxTree) :
    (∀ phase next, Passed context root phase → turn? context phase = some (.ok next) →
      next.machine.load < phase.machine.load) ∧
    (∀ machine next frame frames, machine.frames = frame :: frames →
      step context machine frame frames = .ok next → next.load < machine.load) ∧
    (∀ machine, Passed context root (.lowering machine) ↔ Lowering.Reached context root machine) ∧
    (∃ machine count,
      Machine.empty.openFrame root (context.language.significant root) false .root =
        .ok machine ∧
      count < root.weight ∧
      EndsAfter context count (.lowering machine) (lowerRoot context root)) ∧
    (∀ work stack, stackWeight (work.perform stack).2 + 1 = stackWeight (work :: stack)) ∧
    afterPops (statementsWeight tree.statements) (pushStatements tree.statements []) =
      (tree.classifyAll, []) ∧
    ∀ count < statementsWeight tree.statements,
      (afterPops count (pushStatements tree.statements [])).2 ≠ [] := by
  have hstack : stackWeight (pushStatements tree.statements []) =
      statementsWeight tree.statements := stackWeight_pushStatements ..
  refine ⟨fun phase next hpassed hturn => hpassed.load_lt hturn,
    fun machine next frame frames hframes hstep => load_step_lt hframes hstep,
    fun machine => passed_lowering_iff, ?_, Work.stackWeight_perform, ?_, ?_⟩
  · obtain ⟨machine, hopen, hload⟩ := exists_openFrame_root context root
    obtain ⟨count, hcount, hends⟩ := (Passed.start hopen).endsAfter
    refine ⟨machine, count, hopen, Nat.lt_of_le_of_lt hcount hload, ?_⟩
    rw [lowerRoot, hopen]
    exact hends
  · rw [← hstack]
    exact afterPops_stackWeight _
  · intro count hcount
    rw [← hstack] at hcount
    exact afterPops_ne_nil hcount

/-- A JavaScript file whose text is not read. -/
def unreadContext : Context :=
  { language := .javascript, source := [] }

/-- A try construct with a handler that has lost its body. -/
def bodilessRoot : Node :=
  lineNode "program" none 0 27
    [lineNode "try_statement" none 0 27
      [lineNode "statement_block" (some "body") 4 6 [],
        lineNode "catch_clause" (some "handler") 7 16
          [lineNode "identifier" (some "parameter") 14 15 []],
        lineNode "finally_clause" (some "finalizer") 17 27
          [lineNode "statement_block" (some "body") 25 27 []]]]

/-- The fourth turn on the sample takes the handler without a body and leaves the machine in
the loop over the parts.  The first step takes the try node, and the model has one statement
and one handler to pop. -/
theorem bodilessRoot_loops_end :
    (∃ phase next, Passed unreadContext bodilessRoot phase ∧
      turn? unreadContext phase = some (.ok next) ∧
      phase.machine.tries.map (·.parts.length) = [2] ∧
      next.machine.tries.map (·.parts.length) = [1] ∧
      next.machine.load < phase.machine.load) ∧
    (∃ machine next frame frames, machine.frames = frame :: frames ∧
      step unreadContext machine frame frames = .ok next ∧
      next.tries.map (·.node.kind) = ["try_statement"] ∧
      next.load < machine.load) ∧
    ∃ statements machine count,
      count < bodilessRoot.weight ∧
      EndsAfter unreadContext count (.lowering machine) (.ok statements) ∧
      statementsWeight statements = 2 ∧
      (afterPops 1 (pushStatements statements [])).2 ≠ [] := by
  have hfourth : (phaseAfter? unreadContext bodilessRoot 3).map
      (·.machine.tries.map (·.parts.length)) = some [2] := by decide +kernel
  have hfifth : (phaseAfter? unreadContext bodilessRoot 4).map
      (·.machine.tries.map (·.parts.length)) = some [1] := by decide +kernel
  have hfirst : (stateAfter? unreadContext bodilessRoot 1).map
      (·.tries.map (·.node.kind)) = some ["try_statement"] := by decide +kernel
  have hmodel : (lowerRoot unreadContext bodilessRoot).toOption.map statementsWeight =
      some 2 := by decide +kernel
  obtain ⟨later, hlater, hone⟩ := Option.map_eq_some_iff.mp hfifth
  obtain ⟨phase, hphase, hturn⟩ := exists_turn_of_phaseAfter? hlater
  rw [hphase] at hfourth
  obtain ⟨next, hnext, hkinds⟩ := Option.map_eq_some_iff.mp hfirst
  obtain ⟨start, frame, frames, -, hframes, hstep⟩ := exists_step_of_stateAfter? hnext
  obtain ⟨statements, hstatements, htwo⟩ := Option.map_eq_some_iff.mp hmodel
  obtain ⟨hturns, hsteps, -, ⟨machine, count, -, hcount, hends⟩, -, -, hleft⟩ :=
    machine_and_walk_end unreadContext bodilessRoot
      { path := "a.js", language := "javascript", statements, hasParseErrors := false }
  rw [eq_ok_of_toOption hstatements] at hends
  have hpassed := passed_of_phaseAfter? hphase
  refine ⟨⟨phase, later, hpassed, hturn, Option.some.inj hfourth, hone,
    hturns phase later hpassed hturn⟩, ⟨start, next, frame, frames, hframes, hstep, hkinds,
    hsteps start next frame frames hframes hstep⟩, statements, machine, count, hcount, hends,
    htwo, ?_⟩
  exact hleft 1 (by rw [htwo]; exact Nat.one_lt_two)

end Search

end HandlerLint
