import HandlerLint.Proofs.Lowering.Discipline
import HandlerLint.Proofs.Lowering.Simulation

/-!
# The machine turn by turn

The machine runs in two loops.  The main one takes the next node of the innermost container,
or closes the container.  Where it closes a part of a try construct, and where it takes a try
node, it enters the other one, which takes one part of the innermost try construct after
another until a part opens a container or none is left.  Here every turn of either loop
stands alone.  Put together again, the turns are the machine.

The load of a state is read off the pending nodes, the pending parts and the open containers
and try constructs.  Every turn makes it smaller, also one that does nothing but turn a part
into a container.  So the loops are left, on every parse tree, after no more turns than the
load of the state they are entered in, and with what the machine gives.
-/

namespace HandlerLint.Lowering

open Source

variable {context : Context}

/-! ## Single turns -/

/-- Where the machine is between two turns of its loops. -/
inductive Phase where
  /-- Before a turn of the main loop. -/
  | lowering (machine : Machine)
  /-- Before a turn of the loop over the parts of the innermost try construct. -/
  | advancing (machine : Machine)

/-- The state of the machine, whichever loop it is in. -/
def Phase.machine : Phase → Machine
  | .lowering machine => machine
  | .advancing machine => machine

/-- Change the innermost try construct, if there is one. -/
def Machine.changeTry
    (machine : Machine) (change : TryConstruct → TryConstruct) : Machine :=
  match machine.tries with
  | [] => machine
  | pending :: outer =>
      { machine with
        tries := { pending with construct := change pending.construct } :: outer }

/-- The state in which a turn of the main loop enters the loop over the parts, with the
innermost container given: the container is a part of a try construct and has been closed, or
its next node is a try node and has been taken. -/
def entry?
    (context : Context) (machine : Machine) (frame : Frame) (frames : List Frame) :
    Option Machine :=
  match frame.pending with
  | [] =>
      if frame.finish.isPart then
        some ({ machine with
          frames, bindings := frame.finish.around machine.bindings }.changeTry
            (frame.finish.change frame.done.reverse))
      else none
  | item :: pending =>
      if item.role = .attempt then
        some { machine with
          frames := { frame with pending } :: frames
          tries :=
            { node := item.node, construct := .blank item.node.span,
              parts := tryParts context.language item.node } :: machine.tries }
      else none

/-- Where the machine is after it took a part, given the parts that are left. -/
def Taken.phase
    (machine : Machine) (outer : List PendingTry) (node : Node) (parts : List Part) :
    Taken → Phase
  | .opened next => .lowering next
  | .changed construct =>
      .advancing { machine with tries := { node, construct, parts } :: outer }

/-- One turn of the loop over the parts of a try construct: take the next part, or emit the
construct.  A part that has nothing to lower leaves the machine in the loop. -/
def turnParts
    (context : Context) (machine : Machine) (outer : List PendingTry) (node : Node)
    (construct : TryConstruct) : List Part → Except LowerError Phase
  | [] => .ok (.lowering ({ machine with tries := outer }.emit (.attempt construct)))
  | part :: parts =>
      (takePart context machine outer { node, construct, parts } part).map
        (Taken.phase machine outer node parts)

/-- One turn of the loop that the machine is in.  There is none once no container is open:
then the main loop is left. -/
def turn? (context : Context) : Phase → Option (Except LowerError Phase)
  | .lowering machine =>
      match machine.frames with
      | [] => none
      | frame :: frames =>
          match entry? context machine frame frames with
          | some inner => some (.ok (.advancing inner))
          | none => some ((step context machine frame frames).map .lowering)
  | .advancing machine =>
      match machine.tries with
      | [] => some (.ok (.lowering machine))
      | pending :: outer =>
          some (turnParts context machine outer pending.node pending.construct pending.parts)

/-- The phases that the machine passes through on a parse tree. -/
inductive Passed (context : Context) (root : Node) : Phase → Prop
  | start {machine : Machine}
      (hopen : Machine.empty.openFrame root (context.language.significant root) false .root =
        .ok machine) :
      Passed context root (.lowering machine)
  | turn {phase next : Phase} (hpassed : Passed context root phase)
      (hturn : turn? context phase = some (.ok next)) :
      Passed context root next

/-- After some turns the machine has left its loops, with a result. -/
inductive EndsAfter (context : Context) :
    Nat → Phase → Except LowerError (List Statement) → Prop
  | left {machine : Machine} (hframes : machine.frames = []) :
      EndsAfter context 0 (.lowering machine) (.ok machine.statements)
  | failed {phase : Phase} {error : LowerError}
      (hturn : turn? context phase = some (.error error)) :
      EndsAfter context 1 phase (.error error)
  | turn {count : Nat} {phase next : Phase} {result : Except LowerError (List Statement)}
      (hturn : turn? context phase = some (.ok next))
      (hrest : EndsAfter context count next result) :
      EndsAfter context (count + 1) phase result

/-! ## The turns make up the machine -/

/-- The state in which the machine is back in the main loop. -/
def Phase.resume (context : Context) : Phase → Except LowerError Machine
  | .lowering machine => .ok machine
  | .advancing machine => resumeTry context machine id

/-- What the machine gives from a phase on. -/
def Phase.result (context : Context) (phase : Phase) :
    Except LowerError (List Statement) :=
  phase.resume context >>= run context

theorem map_eq_ok
    {α β : Type} {result : Except LowerError α} {f : α → β} {value : β}
    (h : result.map f = .ok value) :
    ∃ first, result = .ok first ∧ value = f first := by
  cases result with
  | error error => cases h
  | ok first =>
      cases h
      exact ⟨first, rfl, rfl⟩

theorem map_lowering_bind_resume
    (result : Except LowerError Machine) :
    result.map .lowering >>= Phase.resume context = result := by
  cases result <;> rfl

/-- The stack of try constructs does not matter where it is replaced in any case. -/
theorem advanceParts_with_tries
    (machine : Machine) (tries outer : List PendingTry) (node : Node)
    (construct : TryConstruct) (parts : List Part) :
    advanceParts context { machine with tries } outer node construct parts =
      advanceParts context machine outer node construct parts := by
  induction parts generalizing construct with
  | nil => rfl
  | cons part parts ih => simp only [advanceParts, advancePartsOr_cons, ih]

/-- Going on with a try construct on the stack is going on with its parts. -/
theorem resumeTry_with_tries
    (context : Context) (machine : Machine) (pending : PendingTry) (outer : List PendingTry) :
    resumeTry context { machine with tries := pending :: outer } id =
      advanceParts context machine outer pending.node pending.construct pending.parts := by
  rw [resumeTry, resumeTryOr_of_tries rfl, id]
  exact advanceParts_with_tries ..

theorem resumeTry_changeTry
    (machine : Machine) (change : TryConstruct → TryConstruct) :
    resumeTry context (machine.changeTry change) id = resumeTry context machine change := by
  unfold Machine.changeTry
  split
  · next hnone => simp only [resumeTry, resumeTryOr, hnone]
  · next pending outer htries =>
      rw [resumeTry_with_tries, resumeTry, resumeTryOr_of_tries htries]

/-- Going on with a try construct is one turn and what comes after it. -/
theorem advanceParts_eq_bind_turnParts
    (machine : Machine) (outer : List PendingTry) (node : Node)
    (construct : TryConstruct) (parts : List Part) :
    advanceParts context machine outer node construct parts =
      turnParts context machine outer node construct parts >>= Phase.resume context := by
  cases parts with
  | nil => exact advanceParts_nil ..
  | cons part parts =>
      rw [advanceParts, advancePartsOr, turnParts]
      cases takePart context machine outer { node, construct, parts } part with
      | error error => rfl
      | ok taken =>
          cases taken with
          | opened next => rfl
          | changed changed =>
              exact (resumeTry_with_tries context machine
                { node, construct := changed, parts } outer).symm

/-- A turn of the main loop that enters the loop over the parts runs it to its end. -/
theorem step_of_entry?
    {machine inner : Machine} {frame : Frame} {frames : List Frame}
    (h : entry? context machine frame frames = some inner) :
    step context machine frame frames = resumeTry context inner id := by
  unfold entry? at h
  rw [step, stepOr]
  cases hpending : frame.pending with
  | nil =>
      simp only [hpending] at h
      split at h
      · next hpart =>
          cases h
          rw [resumeTry_changeTry]
          exact closeOr_of_isPart hpart ..
      · cases h
  | cons item pending =>
      simp only [hpending] at h
      split at h
      · next hrole =>
          cases h
          -- A try node is kept also where unremarkable nodes are searched through.
          have hkept : ¬(frame.flatten && item.role == .other) = true := by simp [hrole]
          dsimp only
          rw [if_neg hkept, visitOr]
          simp only [hrole]
          exact (resumeTry_with_tries context
            { machine with frames := { frame with pending } :: frames }
            { node := item.node, construct := .blank item.node.span,
              parts := tryParts context.language item.node } machine.tries).symm
      · cases h

/-- A turn of the main loop takes place while a container is open, and with what comes after
it before the next turn of the main loop it is a step of the machine. -/
theorem step_of_turn?
    {machine : Machine} {outcome : Except LowerError Phase}
    (h : turn? context (.lowering machine) = some outcome) :
    ∃ frame frames, machine.frames = frame :: frames ∧
      step context machine frame frames = outcome >>= Phase.resume context := by
  rw [turn?] at h
  split at h
  · cases h
  · next frame frames hframes =>
      refine ⟨frame, frames, hframes, ?_⟩
      split at h
      · next inner hentry =>
          cases h
          exact step_of_entry? hentry
      · cases h
        exact (map_lowering_bind_resume _).symm

/-- A turn of the loop over the parts leaves as it is what that loop comes to. -/
theorem resumeTry_of_turn?
    {machine : Machine} {outcome : Except LowerError Phase}
    (h : turn? context (.advancing machine) = some outcome) :
    resumeTry context machine id = outcome >>= Phase.resume context := by
  rw [turn?] at h
  split at h
  · next htries =>
      cases h
      rw [resumeTry, resumeTryOr, htries, ok_bind, Phase.resume]
  · next pending outer htries =>
      cases h
      rw [resumeTry, resumeTryOr_of_tries htries, id]
      exact advanceParts_eq_bind_turnParts ..

theorem exists_turn?_lowering
    (context : Context) {machine : Machine} {frame : Frame} {frames : List Frame}
    (h : machine.frames = frame :: frames) :
    ∃ outcome, turn? context (.lowering machine) = some outcome := by
  rw [turn?, h]
  dsimp only
  split <;> exact ⟨_, rfl⟩

theorem exists_turn?_advancing
    (context : Context) (machine : Machine) :
    ∃ outcome, turn? context (.advancing machine) = some outcome := by
  rw [turn?]
  split <;> exact ⟨_, rfl⟩

/-- The loops are left only from the main one, with no container open. -/
theorem eq_lowering_of_turn?_eq_none
    {phase : Phase} (h : turn? context phase = none) :
    ∃ machine, phase = .lowering machine ∧ machine.frames = [] := by
  cases phase with
  | lowering machine =>
      rw [turn?] at h
      split at h
      · next hframes => exact ⟨machine, rfl, hframes⟩
      · split at h <;> cases h
  | advancing machine =>
      rw [turn?] at h
      split at h <;> cases h

/-- A turn leaves as it is what the machine gives. -/
theorem result_of_turn?
    {phase : Phase} {outcome : Except LowerError Phase}
    (h : turn? context phase = some outcome) :
    phase.result context = outcome >>= Phase.result context := by
  have hresume : phase.result context = (outcome >>= Phase.resume context) >>= run context := by
    cases phase with
    | lowering machine =>
        obtain ⟨frame, frames, hframes, hstep⟩ := step_of_turn? h
        rw [← hstep, ← run_of_frames hframes]
        rfl
    | advancing machine =>
        rw [← resumeTry_of_turn? h]
        rfl
  rw [hresume, bind_assoc]
  rfl

/-! ## The load -/

/-- What an open container still has to do.  The container itself counts one, which is less
than the two of a part or a try construct, so opening a container for a part is progress. -/
def Frame.load (frame : Frame) : Nat :=
  1 + 2 * Placed.weightList frame.pending

/-- What a pending try construct still has to do. -/
def PendingTry.load (pending : PendingTry) : Nat :=
  2 + 2 * partsWeight pending.parts

/-- What open containers still have to do. -/
def framesLoad : List Frame → Nat
  | [] => 0
  | frame :: frames => frame.load + framesLoad frames

/-- What pending try constructs still have to do. -/
def triesLoad : List PendingTry → Nat
  | [] => 0
  | pending :: tries => pending.load + triesLoad tries

/-- What the machine still has to do: for every open container and its pending nodes, and for
every pending try construct and its pending parts. -/
def Machine.load (machine : Machine) : Nat :=
  framesLoad machine.frames + triesLoad machine.tries

theorem framesLoad_add_length
    (frames : List Frame) :
    framesLoad frames + frames.length = 2 * framesWeight frames := by
  induction frames with
  | nil => rfl
  | cons frame frames ih =>
      simp only [framesLoad, List.length_cons, framesWeight, Frame.load, Frame.weight]
      omega

theorem triesLoad_eq
    (tries : List PendingTry) :
    triesLoad tries = 2 * triesWeight tries := by
  induction tries with
  | nil => rfl
  | cons pending tries ih =>
      simp only [triesLoad, triesWeight, PendingTry.load, PendingTry.weight]
      omega

/-- The load is twice the weight, but an open container counts once only. -/
theorem Machine.load_add_length
    (machine : Machine) :
    machine.load + machine.frames.length = 2 * machine.weight := by
  have hframes := framesLoad_add_length machine.frames
  have htries := triesLoad_eq machine.tries
  rw [Machine.load, Machine.weight]
  omega

@[simp] theorem Machine.load_emit
    (machine : Machine) (statement : Statement) :
    (machine.emit statement).load = machine.load := by
  have hbefore := machine.load_add_length
  have hafter := (machine.emit statement).load_add_length
  rw [Machine.weight_emit, Machine.length_frames_emit] at hafter
  omega

@[simp] theorem Machine.load_changeTry
    (machine : Machine) (change : TryConstruct → TryConstruct) :
    (machine.changeTry change).load = machine.load := by
  unfold Machine.changeTry
  split
  · rfl
  · next pending outer htries => simp only [Machine.load, htries, triesLoad, PendingTry.load]

/-! ### Turns of the loop over the parts -/

/-- What a turn on a part leads to: the next part, or a container whose nodes weigh less than
the part. -/
theorem turnParts_cons_cases
    {machine : Machine} {outer : List PendingTry} {node : Node} {construct : TryConstruct}
    {part : Part} {parts : List Part} {next : Phase}
    (h : turnParts context machine outer node construct (part :: parts) = .ok next) :
    (∃ changed, next =
        .advancing { machine with tries := { node, construct := changed, parts } :: outer }) ∨
      ∃ items finish bindings, Placed.weightList items < part.weight ∧ next =
        .lowering { machine with
          frames := { pending := items, done := [], flatten := false, finish } :: machine.frames
          tries := { node, construct, parts } :: outer
          bindings } := by
  rw [turnParts, takePart] at h
  split at h
  · next at_ items finish hrequest =>
      obtain ⟨taken, htaken, rfl⟩ := map_eq_ok h
      obtain ⟨opened, hopen, rfl⟩ := map_eq_ok htaken
      refine .inr ⟨items, finish, finish.bound?.toList ++ machine.bindings,
        weightList_lt_of_request hrequest, ?_⟩
      rw [openFrame_eq_ok hopen]
      rfl
  · cases h
    exact .inl ⟨_, rfl⟩

/-- A turn on the parts of the innermost try construct makes the load smaller: a part is
gone, or stands on the stack as a container, or the try construct is gone. -/
theorem load_turnParts_lt
    {machine : Machine} {pending : PendingTry} {outer : List PendingTry} {next : Phase}
    (htries : machine.tries = pending :: outer)
    (h : turnParts context machine outer pending.node pending.construct pending.parts =
      .ok next) :
    next.machine.load < machine.load := by
  have hload : machine.load =
      framesLoad machine.frames + (2 + 2 * partsWeight pending.parts + triesLoad outer) := by
    rw [Machine.load, htries, triesLoad, PendingTry.load]
  cases hparts : pending.parts with
  | nil =>
      rw [hparts, turnParts] at h
      cases h
      rw [hload, Phase.machine, Machine.load_emit, Machine.load]
      dsimp only
      omega
  | cons part parts =>
      rw [hparts] at h
      have hpart := part.weight_pos
      rw [hload, hparts, partsWeight]
      rcases turnParts_cons_cases h with ⟨changed, rfl⟩ | ⟨items, finish, bindings, hitems, rfl⟩
      · simp only [Phase.machine, Machine.load, triesLoad, PendingTry.load]
        omega
      · simp only [Phase.machine, Machine.load, framesLoad, Frame.load, triesLoad,
          PendingTry.load]
        omega

/-- Without a try construct on the stack the loop over the parts is left at once.  Any other
turn of it makes the load smaller. -/
theorem load_advancing_lt
    {machine : Machine} {next : Phase} (hmachine : machine.tries ≠ [])
    (h : turn? context (.advancing machine) = some (.ok next)) :
    next.machine.load < machine.load := by
  rw [turn?] at h
  split at h
  · next hnone => exact absurd hnone hmachine
  · next pending outer htries => exact load_turnParts_lt htries (Option.some.inj h)

/-! ### Turns of the main loop -/

theorem length_frames_advanceParts_le
    {machine next : Machine} {outer : List PendingTry} {node : Node}
    {construct : TryConstruct} {parts : List Part}
    (h : advanceParts context machine outer node construct parts = .ok next) :
    machine.frames.length ≤ next.frames.length := by
  induction parts generalizing construct with
  | nil =>
      rw [advanceParts_nil] at h
      cases h
      exact Nat.le_of_eq (Machine.length_frames_emit { machine with tries := outer } _).symm
  | cons part parts ih =>
      rcases advanceParts_cons_opens h with ⟨changed, hrest⟩ | ⟨items, finish, -, rfl⟩
      · exact ih hrest
      · exact Nat.le_succ _

theorem length_frames_resumeTry_le
    {machine next : Machine} {change : TryConstruct → TryConstruct}
    (h : resumeTry context machine change = .ok next) :
    machine.frames.length ≤ next.frames.length := by
  rw [resumeTry, resumeTryOr] at h
  split at h
  · cases h
    exact Nat.le_refl _
  · exact length_frames_advanceParts_le h

theorem length_frames_visit_le
    {machine next : Machine} {item : Placed} (h : visit context machine item = .ok next) :
    machine.frames.length ≤ next.frames.length := by
  rcases visit_cases h with
    ⟨-, hadvance⟩ | ⟨-, -, -, statement, -, rfl⟩ | ⟨-, -, flatten, finish, -, -, hopen⟩
  · exact length_frames_advanceParts_le hadvance
  · exact Nat.le_of_eq (Machine.length_frames_emit ..).symm
  · rw [openFrame_eq_ok hopen]
    exact Nat.le_succ _

theorem length_frames_close_le
    {machine next : Machine} {frame : Frame} (h : close context machine frame = .ok next) :
    machine.frames.length ≤ next.frames.length := by
  rcases close_cases h with ⟨-, rfl⟩ | ⟨-, -, statement, rfl⟩ | ⟨-, hresume⟩
  · exact Nat.le_refl _
  · exact Nat.le_of_eq (Machine.length_frames_emit ..).symm
  · have hlength := length_frames_resumeTry_le hresume
    exact hlength

/-- A step closes one container at most. -/
theorem length_frames_step_le
    {machine next : Machine} {frame : Frame} {frames : List Frame}
    (h : step context machine frame frames = .ok next) :
    frames.length ≤ next.frames.length := by
  rw [step, stepOr] at h
  split at h
  · exact length_frames_close_le h
  · split at h
    · cases h
      exact Nat.le_succ _
    · have hlength := length_frames_visit_le h
      exact Nat.le_of_succ_le hlength

theorem load_step_lt
    {machine next : Machine} {frame : Frame} {frames : List Frame}
    (hframes : machine.frames = frame :: frames)
    (h : step context machine frame frames = .ok next) :
    next.load < machine.load := by
  -- The weight alone would do for a whole step, but the load counts containers differently.
  have hweight := weight_step_lt hframes h
  have hlength := length_frames_step_le h
  have hbefore := machine.load_add_length
  have hafter := next.load_add_length
  rw [hframes, List.length_cons] at hbefore
  omega

/-- A turn that enters the loop over the parts makes the load smaller before that. -/
theorem load_entry?_lt
    {machine inner : Machine} {frame : Frame} {frames : List Frame}
    (hframes : machine.frames = frame :: frames)
    (h : entry? context machine frame frames = some inner) :
    inner.load < machine.load := by
  unfold entry? at h
  cases hpending : frame.pending with
  | nil =>
      simp only [hpending] at h
      split at h
      · cases h
        rw [Machine.load_changeTry]
        simp only [Machine.load, hframes, framesLoad, Frame.load]
        omega
      · cases h
  | cons item pending =>
      simp only [hpending] at h
      split at h
      · cases h
        have hparts := partsWeight_tryParts_lt context.language item.node
        simp only [Machine.load, hframes, framesLoad, Frame.load, hpending, triesLoad,
          PendingTry.load, Placed.weightList_cons]
        omega
      · cases h

theorem load_lowering_lt
    {machine : Machine} {next : Phase}
    (h : turn? context (.lowering machine) = some (.ok next)) :
    next.machine.load < machine.load := by
  rw [turn?] at h
  split at h
  · cases h
  · next frame frames hframes =>
      split at h
      · next inner hentry =>
          cases h
          exact load_entry?_lt hframes hentry
      · obtain ⟨after, hstep, rfl⟩ := map_eq_ok (Option.some.inj h)
        exact load_step_lt hframes hstep

/-! ## The phases of a run -/

variable {root : Node}

theorem Machine.changeTry_tries_ne_nil
    {machine : Machine} (h : machine.tries ≠ []) (change : TryConstruct → TryConstruct) :
    (machine.changeTry change).tries ≠ [] := by
  unfold Machine.changeTry
  split
  · exact h
  · exact List.cons_ne_nil _ _

/-- The loop over the parts is entered only with a try construct on the stack. -/
theorem Reached.tries_ne_nil_of_entry?
    {machine inner : Machine} {frame : Frame} {frames : List Frame}
    (hreached : Reached context root machine) (hframes : machine.frames = frame :: frames)
    (h : entry? context machine frame frames = some inner) :
    inner.tries ≠ [] := by
  unfold entry? at h
  cases hpending : frame.pending with
  | nil =>
      simp only [hpending] at h
      split at h
      · next hpart =>
          cases h
          refine Machine.changeTry_tries_ne_nil ?_ _
          rcases hreached.disciplined with hmachine | hcleared
          · exact hmachine.tries_ne_nil hframes hpart
          · rw [hcleared.frames] at hframes
            cases hframes
      · cases h
  | cons item pending =>
      simp only [hpending] at h
      split at h
      · cases h
        exact List.cons_ne_nil _ _
      · cases h

/-- A phase leads to states that the machine comes to, and the loop over the parts always
finds a try construct. -/
structure Phase.OnCourse (context : Context) (root : Node) (phase : Phase) : Prop where
  resumes : ∀ machine, phase.resume context = .ok machine → Reached context root machine
  tries_ne_nil : ∀ machine, phase = .advancing machine → machine.tries ≠ []

theorem Phase.OnCourse.turn
    {phase next : Phase} (h : phase.OnCourse context root)
    (hturn : turn? context phase = some (.ok next)) :
    next.OnCourse context root := by
  cases phase with
  | lowering machine =>
      have hreached := h.resumes machine rfl
      obtain ⟨frame, frames, hframes, hstep⟩ := step_of_turn? hturn
      rw [ok_bind] at hstep
      refine ⟨fun after hafter => .step hreached hframes (hstep.trans hafter), ?_⟩
      rintro inner rfl
      rw [turn?, hframes] at hturn
      dsimp only at hturn
      split at hturn
      · next entered hentry =>
          cases hturn
          exact hreached.tries_ne_nil_of_entry? hframes hentry
      · obtain ⟨after, -, hother⟩ := map_eq_ok (Option.some.inj hturn)
        cases hother
  | advancing machine =>
      have hresume := resumeTry_of_turn? hturn
      rw [ok_bind] at hresume
      refine ⟨fun after hafter => h.resumes after (hresume.trans hafter), ?_⟩
      rintro inner rfl
      rw [turn?] at hturn
      split at hturn
      · cases hturn
      · next pending outer htries =>
          have hparts := Option.some.inj hturn
          cases hleft : pending.parts with
          | nil =>
              rw [hleft, turnParts] at hparts
              cases hparts
          | cons part parts =>
              rw [hleft] at hparts
              rcases turnParts_cons_cases hparts with ⟨changed, hinner⟩ | ⟨_, _, _, -, hother⟩
              · cases hinner
                exact List.cons_ne_nil _ _
              · cases hother

theorem Passed.onCourse
    {phase : Phase} (h : Passed context root phase) :
    phase.OnCourse context root := by
  induction h with
  | start hopen =>
      refine ⟨fun machine hmachine => ?_, fun machine hmachine => by cases hmachine⟩
      cases hmachine
      exact .start hopen
  | turn _ hturn ih => exact ih.turn hturn

/-- Every turn makes the load smaller. -/
theorem Passed.load_lt
    {phase next : Phase} (h : Passed context root phase)
    (hturn : turn? context phase = some (.ok next)) :
    next.machine.load < phase.machine.load := by
  cases phase with
  | lowering machine => exact load_lowering_lt hturn
  | advancing machine => exact load_advancing_lt (h.onCourse.tries_ne_nil machine rfl) hturn

/-- What holds of a phase whenever it holds of the phase after the next turn holds of every
phase of a run: the induction is on the load. -/
theorem Passed.induction
    {motive : ∀ phase, Passed context root phase → Prop}
    (turn : ∀ phase hpassed,
      (∀ next, (hturn : turn? context phase = some (.ok next)) →
        motive next (hpassed.turn hturn)) →
      motive phase hpassed)
    {phase : Phase} (h : Passed context root phase) : motive phase h := by
  induction hload : phase.machine.load using Nat.strongRecOn generalizing phase with
  | _ load ih =>
      refine turn phase h fun next hturn => ?_
      exact ih _ (hload ▸ h.load_lt hturn) (h.turn hturn) rfl

/-- The loop over the parts comes back to the main loop. -/
theorem Passed.resume
    {phase : Phase} {machine : Machine} (h : Passed context root phase)
    (hresume : phase.resume context = .ok machine) :
    Passed context root (.lowering machine) := by
  revert hresume
  induction h using Passed.induction with
  | turn phase hpassed ih =>
      intro hresume
      cases phase with
      | lowering before =>
          cases hresume
          exact hpassed
      | advancing before =>
          obtain ⟨outcome, hturn⟩ := exists_turn?_advancing context before
          rw [Phase.resume, resumeTry_of_turn? hturn] at hresume
          obtain ⟨next, rfl, hnext⟩ := bind_eq_ok_iff.mp hresume
          exact ih next hturn hnext

/-- The states before the turns of the main loop are those that the machine comes to. -/
theorem passed_lowering_iff
    {machine : Machine} :
    Passed context root (.lowering machine) ↔ Reached context root machine := by
  constructor
  · intro hpassed
    exact hpassed.onCourse.resumes machine rfl
  · intro hreached
    induction hreached with
    | start hopen => exact .start hopen
    | @step machine next frame frames _ hframes hstep ih =>
        obtain ⟨outcome, hturn⟩ := exists_turn?_lowering context hframes
        obtain ⟨first, rest, hcons, hturns⟩ := step_of_turn? hturn
        obtain ⟨rfl, rfl⟩ := List.cons.inj (hframes.symm.trans hcons)
        rw [hturns] at hstep
        obtain ⟨phase, rfl, hresume⟩ := bind_eq_ok_iff.mp hstep
        exact (ih.turn hturn).resume hresume

/-- A phase with a turn to take has a load. -/
theorem Passed.load_pos
    {phase : Phase} {outcome : Except LowerError Phase} (h : Passed context root phase)
    (hturn : turn? context phase = some outcome) :
    0 < phase.machine.load := by
  cases phase with
  | lowering machine =>
      obtain ⟨frame, frames, hframes, -⟩ := step_of_turn? hturn
      simp only [Phase.machine, Machine.load, hframes, framesLoad, Frame.load]
      omega
  | advancing machine =>
      obtain ⟨pending, outer, htries⟩ :=
        List.exists_cons_of_ne_nil (h.onCourse.tries_ne_nil machine rfl)
      simp only [Phase.machine, Machine.load, htries, triesLoad, PendingTry.load]
      omega

/-- From every phase of a run the loops are left after no more turns than the load. -/
theorem Passed.endsAfter
    {phase : Phase} (h : Passed context root phase) :
    ∃ count ≤ phase.machine.load, EndsAfter context count phase (phase.result context) := by
  induction h using Passed.induction with
  | turn phase hpassed ih =>
      cases hturn : turn? context phase with
      | none =>
          obtain ⟨machine, rfl, hframes⟩ := eq_lowering_of_turn?_eq_none hturn
          refine ⟨0, Nat.zero_le _, ?_⟩
          rw [Phase.result, Phase.resume, ok_bind, run_of_no_frames hframes]
          exact .left hframes
      | some outcome =>
          rw [result_of_turn? hturn]
          cases outcome with
          | error error => exact ⟨1, hpassed.load_pos hturn, .failed hturn⟩
          | ok next =>
              obtain ⟨count, hcount, hends⟩ := ih next hturn
              have hlt := hpassed.load_lt hturn
              exact ⟨count + 1, by omega, .turn hturn hends⟩

/-- The phase of the machine after some turns, if it takes that many. -/
def phaseAfter? (context : Context) (root : Node) : Nat → Option Phase
  | 0 =>
      (Machine.empty.openFrame root (context.language.significant root) false
        .root).toOption.map .lowering
  | count + 1 =>
      match phaseAfter? context root count with
      | none => none
      | some phase => (turn? context phase).bind (·.toOption)

theorem exists_turn_of_phaseAfter?
    {count : Nat} {next : Phase}
    (h : phaseAfter? context root (count + 1) = some next) :
    ∃ phase, phaseAfter? context root count = some phase ∧
      turn? context phase = some (.ok next) := by
  rw [phaseAfter?] at h
  split at h
  · cases h
  · next phase hphase =>
      obtain ⟨outcome, hturn, hnext⟩ := Option.bind_eq_some_iff.mp h
      rw [eq_ok_of_toOption hnext] at hturn
      exact ⟨phase, hphase, hturn⟩

theorem passed_of_phaseAfter?
    {count : Nat} {phase : Phase}
    (h : phaseAfter? context root count = some phase) :
    Passed context root phase := by
  induction count generalizing phase with
  | zero =>
      cases h
      exact .start rfl
  | succ count ih =>
      obtain ⟨before, hbefore, hturn⟩ := exists_turn_of_phaseAfter? h
      exact (ih hbefore).turn hturn

end HandlerLint.Lowering
