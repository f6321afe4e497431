import HandlerLint.Lowering.Machine
import HandlerLint.Proofs.Lowering.Recursion

/-!
# The machine and the recursion agree

A state of the lowering machine is read back as the answer that it will give: the
nodes that are pending in the innermost container are lowered by recursion, the
container is settled into the one around it, and so on down to the root.  Settling a
part of a try construct lowers the parts that are left, again by recursion.

One step of the machine leaves this answer as it is.  Running the machine therefore
gives the answer that its first state is read back as, which is the recursion over
the whole tree.
-/

namespace HandlerLint.Lowering

open Source

variable {context : Context}

/-! ## Reading a state back -/

/-- Complete the innermost try construct after a change to it: lower the parts that
are left by recursion and emit the construct. -/
def completeTry
    (context : Context) (machine : Machine)
    (change : TryConstruct → TryConstruct) : Except LowerError Machine :=
  match machine.tries with
  | [] => .ok machine
  | pending :: outer => do
      let construct ← lowerParts context machine.frames.length machine.binding?
        pending.node (change pending.construct) pending.parts
      return { machine with tries := outer }.emit (.attempt construct)

/-- Settle a container that is off the stack and whose statements are known. -/
def settle
    (context : Context) (machine : Machine) (done : List Statement) (finish : Finish) :
    Except LowerError Machine :=
  match finish with
  | .root => .ok { machine with statements := done }
  | .other span kind => .ok (machine.emit (.other span kind done))
  | .expression span => .ok (machine.emit (.expression span done))
  | .tryBody | .handler _ | .orelse | .finalizer =>
      completeTry context { machine with bindings := finish.around machine.bindings }
        (finish.change done)

theorem Machine.length_frames_emit
    (machine : Machine) (statement : Statement) :
    (machine.emit statement).frames.length = machine.frames.length := by
  unfold Machine.emit
  split
  · rfl
  · next frame frames hframes => simp [hframes]

theorem length_frames_completeTry
    {machine next : Machine} {change : TryConstruct → TryConstruct}
    (h : completeTry context machine change = .ok next) :
    next.frames.length = machine.frames.length := by
  unfold completeTry at h
  split at h
  · cases h
    rfl
  · next pending outer htries =>
      obtain ⟨construct, _, hnext⟩ := bind_eq_ok_iff.mp h
      cases hnext
      exact Machine.length_frames_emit ..

theorem length_frames_settle
    {machine next : Machine} {done : List Statement} {finish : Finish}
    (h : settle context machine done finish = .ok next) :
    next.frames.length = machine.frames.length := by
  cases finish with
  | root =>
      cases h
      rfl
  | other span kind =>
      cases h
      exact Machine.length_frames_emit ..
  | expression span =>
      cases h
      exact Machine.length_frames_emit ..
  | _ =>
      rw [settle] at h
      have hlength := length_frames_completeTry h
      exact hlength

/-- Settling a container leaves fewer containers open. -/
theorem length_frames_settle_lt
    {machine next : Machine} {frame : Frame} {frames : List Frame}
    {done : List Statement} {finish : Finish}
    (hframes : machine.frames = frame :: frames)
    (hsettle : settle context { machine with frames } done finish = .ok next) :
    next.frames.length < machine.frames.length := by
  have hlength := length_frames_settle hsettle
  rw [hframes, List.length_cons, hlength]
  exact Nat.lt_succ_self _

/-- The answer that a state of the machine stands for. -/
def Machine.outcome
    (context : Context) (machine : Machine) : Except LowerError (List Statement) :=
  match hframes : machine.frames with
  | [] => .ok machine.statements
  | frame :: frames =>
      match lowerItems context frame.flatten (frames.length + 1) machine.binding?
          frame.pending with
      | .error error => .error error
      | .ok lowered =>
          match hsettle : settle context { machine with frames }
              (frame.done.reverse ++ lowered) frame.finish with
          | .error error => .error error
          | .ok next =>
              have := length_frames_settle_lt hframes hsettle
              next.outcome context
termination_by machine.frames.length

theorem Machine.outcome_of_no_frames
    {machine : Machine} (hframes : machine.frames = []) :
    machine.outcome context = .ok machine.statements := by
  rw [Machine.outcome]
  split
  · rfl
  · next frame frames hcons => simp [hframes] at hcons

/-- A state with an open container: the pending nodes are lowered, then the container
is settled. -/
theorem Machine.outcome_of_frames
    {machine : Machine} {frame : Frame} {frames : List Frame}
    (hframes : machine.frames = frame :: frames) :
    machine.outcome context =
      lowerItems context frame.flatten (frames.length + 1) machine.binding?
          frame.pending >>= fun lowered =>
        settle context { machine with frames } (frame.done.reverse ++ lowered)
          frame.finish >>= Machine.outcome context := by
  rw [Machine.outcome]
  split
  · next hnil => simp [hframes] at hnil
  · next first rest hcons =>
      rw [hframes] at hcons
      obtain ⟨rfl, rfl⟩ := List.cons.inj hcons
      cases lowerItems context frame.flatten (frames.length + 1) machine.binding?
          frame.pending with
      | error error => rfl
      | ok lowered =>
          rw [ok_bind]
          dsimp only
          split
          · next error hsettle => rw [hsettle, error_bind]
          · next next hsettle => rw [hsettle, ok_bind]

/-! ## One step -/

/-- Opening a container announces that its nodes are lowered and then settled. -/
theorem openFrame_bind_outcome
    (machine : Machine) (at_ : Node) (items : List Placed) (flatten : Bool)
    (finish : Finish) :
    machine.openFrame at_ items flatten finish >>= Machine.outcome context =
      if maxNesting ≤ machine.frames.length then .error (.tooDeep at_.line)
      else
        lowerItems context flatten (machine.frames.length + 1) machine.binding?
            items >>= fun lowered =>
          settle context machine lowered finish >>= Machine.outcome context := by
  unfold Machine.openFrame
  split
  · rfl
  · rw [ok_bind, Machine.outcome_of_frames rfl]
    rfl

/-- What the recursion is asked for, given what the machine is asked for: to lower the same
nodes and to put their statements where closing the container puts them. -/
def Request.demand (binding : Option String) : Request → Demand
  | .container at_ items finish =>
      .container at_ (finish.bound?.getD binding) items fun done => finish.change done
  | .change update => .change update

theorem blockDemand_eq
    (finish : Finish) (hbound : finish.bound? = none) (clauseNode : Node)
    (binding : Option String) :
    blockDemand context binding clauseNode (fun done => finish.change done) =
      (blockRequest context clauseNode finish).demand binding := by
  unfold blockDemand blockRequest
  cases clauseBlock? context.language clauseNode with
  | none => rfl
  | some block => simp only [Request.demand, hbound, Option.getD_none]

/-- What the recursion is asked for by a part is what the machine is asked for. -/
theorem demand_eq
    (context : Context) (node : Node) (part : Part) (binding : Option String) :
    part.demand context binding node = (part.request context node).demand binding := by
  cases part with
  | statements items => rfl
  | handler clauseNode =>
      simp only [Part.demand, Part.request]
      cases presentBody? (context.language.handlerParts context.source clauseNode) <;> rfl
  | orelse clauseNode => exact blockDemand_eq .orelse rfl clauseNode binding
  | finalizer clauseNode => exact blockDemand_eq .finalizer rfl clauseNode binding

/-- Settling a part of the try construct on top of the stack completes the construct. -/
theorem settle_part
    {machine : Machine} {pending : PendingTry} {outer : List PendingTry} {finish : Finish}
    (hpart : finish.isPart = true) (htries : machine.tries = pending :: outer)
    (done : List Statement) :
    settle context machine done finish =
      lowerParts context machine.frames.length
          (finish.around machine.bindings).head?.join pending.node
          (finish.change done pending.construct) pending.parts >>= fun construct =>
        .ok ({ machine with
          tries := outer
          bindings := finish.around machine.bindings }.emit (.attempt construct)) := by
  cases finish with
  | root | other | expression => cases hpart
  | _ =>
      rw [settle, completeTry]
      simp only [htries]
      rfl

/-- Outside a part the names are those that were bound before the part was opened. -/
theorem around_bound
    (finish : Finish) (bindings : List (Option String)) :
    finish.around (finish.bound?.toList ++ bindings) = bindings := by
  cases finish <;> rfl

theorem head?_bound
    (finish : Finish) (bindings : List (Option String)) :
    (finish.bound?.toList ++ bindings).head?.join =
      finish.bound?.getD bindings.head?.join := by
  cases finish <;> rfl

/-- Going on with a try construct announces that its parts are lowered and the
construct is emitted. -/
theorem advanceParts_bind_outcome
    (machine : Machine) (outer : List PendingTry) (node : Node)
    (construct : TryConstruct) (parts : List Part) :
    advanceParts context machine outer node construct parts >>=
        Machine.outcome context =
      lowerParts context machine.frames.length machine.binding? node construct
          parts >>= fun result =>
        ({ machine with tries := outer }.emit (.attempt result)).outcome context := by
  induction parts generalizing construct with
  | nil => rw [advanceParts_nil, lowerParts_nil, ok_bind, ok_bind]
  | cons part parts ih =>
      rw [advanceParts, advancePartsOr_cons, lowerParts_cons, bind_assoc]
      cases hrequest : part.request context node with
      | container at_ items finish =>
          have hpart := isPart_of_request hrequest
          have hsettle (done : List Statement) :
              settle context
                  { machine with
                    tries := { node, construct, parts } :: outer
                    bindings := finish.bound?.toList ++ machine.bindings } done finish =
                lowerParts context machine.frames.length machine.binding? node
                    (finish.change done construct) parts >>= fun result =>
                  .ok ({ machine with tries := outer }.emit (.attempt result)) := by
            rw [settle_part hpart rfl, around_bound]
            rfl
          rw [demand_eq, hrequest, Request.demand, Demand.meet_container_bind]
          dsimp only
          rw [openFrame_bind_outcome]
          simp only [hsettle, Machine.binding?, head?_bound, bind_assoc, ok_bind]
      | change update =>
          rw [demand_eq, hrequest]
          exact ih _

/-- Closing a container announces that it is settled. -/
theorem close_bind_outcome
    (machine : Machine) (frame : Frame) :
    close context machine frame >>= Machine.outcome context =
      settle context machine frame.done.reverse frame.finish >>=
        Machine.outcome context := by
  have hresume :
      ∀ (machine : Machine) (change : TryConstruct → TryConstruct),
        resumeTry context machine change >>= Machine.outcome context =
          completeTry context machine change >>= Machine.outcome context := by
    intro machine change
    rw [resumeTry, resumeTryOr, completeTry]
    cases machine.tries with
    | nil => rfl
    | cons pending outer =>
        dsimp only
        rw [advanceParts_bind_outcome]
        simp only [bind_assoc, pure_bind]
  simp only [close, closeOr, Machine.emitOr_ok]
  cases frame.finish with
  | root => rfl
  | other span kind => rfl
  | expression span => rfl
  | _ => exact hresume _ _

/-- Opening a container for a node announces that the node's task is carried out. -/
theorem openFrame_bind_outcome_eq_perform
    {machine : Machine} {at_ : Node} {items : List Placed} {flatten : Bool}
    {finish : Finish} {wrap : List Statement → Statement}
    (hfinish : ∀ done, settle context machine done finish = .ok (machine.emit (wrap done))) :
    machine.openFrame at_ items flatten finish >>= Machine.outcome context =
      (Task.container flatten items wrap).perform context machine.frames.length
          machine.binding? at_ >>= fun statement =>
        (machine.emit statement).outcome context := by
  rw [openFrame_bind_outcome, Task.perform]
  split
  · rfl
  · simp only [hfinish, ok_bind, bind_assoc, pure_bind]

/-- Visiting a node announces that its statement is emitted. -/
theorem visit_bind_outcome
    (machine : Machine) (item : Placed) :
    visit context machine item >>= Machine.outcome context =
      lowerItem context machine.frames.length machine.binding? item >>=
        fun statement => (machine.emit statement).outcome context := by
  rw [lowerItem_eq_perform, Task.ofItem]
  simp only [visit, visitOr, Machine.emitOr_ok]
  cases item.role with
  | attempt =>
      dsimp only
      rw [advanceParts_bind_outcome, Task.perform]
      simp only [bind_assoc, pure_bind]
  | throw =>
      dsimp only
      split <;> rfl
  | expressionStatement =>
      dsimp only
      cases context.language.significant item.node with
      | nil => rfl
      | cons expression rest =>
          dsimp only
          split
          · split <;> rfl
          · exact openFrame_bind_outcome_eq_perform fun _ => rfl
  | _ => exact openFrame_bind_outcome_eq_perform fun _ => rfl

/-- A step of the machine leaves its answer as it is. -/
theorem step_bind_outcome
    {machine : Machine} {frame : Frame} {frames : List Frame}
    (hframes : machine.frames = frame :: frames) :
    step context machine frame frames >>= Machine.outcome context =
      machine.outcome context := by
  rw [Machine.outcome_of_frames hframes, step, stepOr]
  cases hpending : frame.pending with
  | nil =>
      dsimp only
      rw [close_bind_outcome, lowerItems_nil, ok_bind, List.append_nil]
  | cons item pending =>
      dsimp only
      by_cases hthrough : (frame.flatten && item.role == .other) = true
      · rw [if_pos hthrough, ok_bind, Machine.outcome_of_frames rfl,
          lowerItems_append, lowerItems_cons_of_through hthrough]
        rfl
      · rw [if_neg hthrough, visit_bind_outcome, lowerItems_cons_of_kept hthrough,
          bind_assoc]
        -- The emitted statement is the last one of the container so far.
        have hemit :
            ∀ statement,
              ({ machine with frames := { frame with pending } :: frames }.emit
                  statement).outcome context =
                lowerItems context frame.flatten (frames.length + 1) machine.binding?
                    pending >>= fun lowered =>
                  settle context { machine with frames }
                    (frame.done.reverse ++ statement :: lowered) frame.finish >>=
                      Machine.outcome context := by
          intro statement
          rw [Machine.outcome_of_frames rfl]
          simp only [List.reverse_cons, List.append_assoc, List.singleton_append]
          rfl
        simp only [hemit, bind_assoc, pure_bind]
        rfl

/-! ## A whole run -/

/-- The machine gives the answer that its state stands for. -/
theorem run_eq_outcome
    (machine : Machine) :
    run context machine = machine.outcome context := by
  fun_induction run context machine with
  | case1 machine hframes => exact (Machine.outcome_of_no_frames hframes).symm
  | case2 machine frame frames hframes error hstep =>
      rw [← step_bind_outcome hframes, hstep, error_bind]
  | case3 machine frame frames hframes next hstep _ ih =>
      rw [ih, ← step_bind_outcome hframes, hstep, ok_bind]

theorem lowerRoot_eq_statementsOf
    (root : Node) :
    lowerRoot context root = statementsOf context root := by
  unfold lowerRoot statementsOf
  rw [Machine.openFrame_root]
  dsimp only
  rw [run_eq_outcome, Machine.outcome_of_frames rfl]
  -- Once the root is settled no container is open.
  have hsettled :
      ∀ lowered : List Statement,
        settle context { Machine.empty with frames := [] } lowered .root >>=
            Machine.outcome context =
          .ok lowered := by
    intro lowered
    exact Machine.outcome_of_no_frames rfl
  have hbind :
      lowerItems context false 1 none (context.language.significant root) >>=
          (fun lowered =>
            settle context { Machine.empty with frames := [] } lowered .root >>=
              Machine.outcome context) =
        lowerItems context false 1 none (context.language.significant root) := by
    simp only [hsettled]
    exact bind_pure _
  exact hbind

/-- The statements of the model of a file are those of its parse tree. -/
theorem statementsOf_of_lower_eq_ok
    {language : Language} {path : String} {source : List UInt8} {tree : Tree}
    {model : SyntaxTree} (h : lower language path source tree = .ok model) :
    statementsOf { language, source } tree.root = .ok model.statements := by
  unfold lower at h
  rw [lowerRoot_eq_statementsOf] at h
  cases hstatements : statementsOf { language, source } tree.root with
  | error error =>
      rw [hstatements] at h
      cases h
  | ok statements =>
      rw [hstatements] at h
      cases h
      rfl

/-- Where a file has no model, the error is that of its statements. -/
theorem lower_eq_error_iff
    {language : Language} {path : String} {source : List UInt8} {tree : Tree}
    {error : LowerError} :
    lower language path source tree = .error error ↔
      statementsOf { language, source } tree.root = .error error := by
  unfold lower
  rw [lowerRoot_eq_statementsOf]
  cases statementsOf { language, source } tree.root with
  | error other =>
      dsimp only
      rw [Except.error.injEq, Except.error.injEq]
  | ok statements =>
      constructor
      · intro h
        cases h
      · intro h
        cases h

/-- Lowering a parsed file with the machine is lowering it by recursion: the same
model where the recursion gives statements, and the same error where it stops. -/
theorem lower_eq_map_statementsOf
    (language : Language) (path : String) (source : List UInt8) (tree : Tree) :
    lower language path source tree =
      (statementsOf { language, source } tree.root).map fun statements =>
        { path, language := language.id, statements, hasParseErrors := tree.hasError } := by
  unfold lower
  rw [lowerRoot_eq_statementsOf]
  cases statementsOf { language, source } tree.root with
  | error error => rfl
  | ok statements => rfl

end HandlerLint.Lowering
