import HandlerLint.Lowering.Part

/-!
# Lowering with an explicit stack

A parse tree is lowered by a machine that keeps its own stacks: the containers
that are open, the try constructs that are being put together, and the names bound
by the handlers around the current node.  Nesting of expressions is therefore
bounded by memory only.

Every step makes the weight of the state smaller, so the machine stops on every
tree.
-/

namespace HandlerLint.Lowering

open Source

/-- What a container becomes once all its nodes are lowered. -/
inductive Finish where
  /-- The statements of the file. -/
  | root
  | other (span : Span) (kind : String)
  | expression (span : Span)
  /-- Statements that run as part of a try construct's body. -/
  | tryBody
  | handler (clause : HandlerClause)
  | orelse
  | finalizer

/-- Whether a container is a part of a try construct. -/
def Finish.isPart : Finish → Bool
  | .root => false
  | .other _ _ => false
  | .expression _ => false
  | .tryBody => true
  | .handler _ => true
  | .orelse => true
  | .finalizer => true

/-- What a container binds: a name or none if it is the body of a handler, and else
nothing at all. -/
def Finish.bound? : Finish → Option (Option String)
  | .handler clause => some clause.binding
  | _ => none

/-- The bindings around a container, given those inside it. -/
def Finish.around (bindings : List (Option String)) : Finish → List (Option String)
  | .handler _ => bindings.tail
  | _ => bindings

theorem Finish.around_of_isPart_eq_false
    {finish : Finish} (h : finish.isPart = false) (bindings : List (Option String)) :
    finish.around bindings = bindings := by
  cases finish with
  | handler => cases h
  | _ => rfl

/-- What the statements of a part add to the try construct that it is a part of. -/
def Finish.change (done : List Statement) : Finish → TryConstruct → TryConstruct
  | .tryBody => fun construct => { construct with body := construct.body ++ done }
  | .handler clause => fun construct =>
      { construct with handlers := construct.handlers ++ [{ clause with body := some done }] }
  | .orelse => fun construct => { construct with orelse := some done }
  | .finalizer => fun construct => { construct with finalizer := some done }
  | .root | .other _ _ | .expression _ => id

/-- What a part of a try construct asks for. -/
inductive Request where
  /-- Nodes to lower as a container of their own. -/
  | container (at_ : Node) (items : List Placed) (finish : Finish)
  /-- A change that needs no lowering. -/
  | change (update : TryConstruct → TryConstruct)

/-- What a clause asks for whose block, if it has one, becomes a part. -/
def blockRequest (context : Context) (clauseNode : Node) (finish : Finish) : Request :=
  match clauseBlock? context.language clauseNode with
  | some block => .container clauseNode (context.language.significant block) finish
  | none => .change (finish.change [])

/-- What a part of the try construct at a node asks for. -/
def Part.request (context : Context) (node : Node) : Part → Request
  | .statements items => .container node items .tryBody
  | .handler clauseNode =>
      let handler := context.language.handlerParts context.source clauseNode
      let clause := blankClause clauseNode handler
      match presentBody? handler with
      | some body =>
          .container clauseNode (context.language.significant body) (.handler clause)
      | none =>
          .change fun construct =>
            { construct with handlers := construct.handlers ++ [clause] }
  | .orelse clauseNode => blockRequest context clauseNode .orelse
  | .finalizer clauseNode => blockRequest context clauseNode .finalizer

/-- An open container. -/
structure Frame where
  /-- The nodes still to lower. -/
  pending : List Placed
  /-- The statements lowered so far, last first. -/
  done : List Statement
  /-- Whether unremarkable nodes are searched through instead of kept. -/
  flatten : Bool
  finish : Finish

/-- A try construct that is being put together. -/
structure PendingTry where
  node : Node
  construct : TryConstruct
  /-- The parts still to lower. -/
  parts : List Part

/-- The state of the machine.  Every stack has its innermost entry first. -/
structure Machine where
  frames : List Frame
  tries : List PendingTry
  /-- The bindings of the handlers around the current node. -/
  bindings : List (Option String)
  /-- The statements of the file, once the root is closed. -/
  statements : List Statement

namespace Machine

/-- The machine before the root is opened. -/
def empty : Machine :=
  { frames := [], tries := [], bindings := [], statements := [] }

/-- Open a container at a node. -/
def openFrame
    (machine : Machine) (at_ : Node) (items : List Placed) (flatten : Bool)
    (finish : Finish) : Except LowerError Machine :=
  if maxNesting ≤ machine.frames.length then .error (.tooDeep at_.line)
  else
    .ok { machine with
      frames := { pending := items, done := [], flatten, finish } :: machine.frames }

/-- Add a lowered statement to the innermost open container. -/
def emit (machine : Machine) (statement : Statement) : Machine :=
  match machine.frames with
  | [] => machine
  | frame :: frames =>
      { machine with frames := { frame with done := statement :: frame.done } :: frames }

/-- The name bound by the innermost handler, if it binds one. -/
def binding? (machine : Machine) : Option String :=
  machine.bindings.head?.join

/-- Add a lowered statement to the innermost open container, or fall back where none is
open. -/
def emitOr
    (fallback : Machine → Except LowerError Machine) (machine : Machine)
    (statement : Statement) : Except LowerError Machine :=
  if machine.frames.isEmpty then fallback machine else .ok (machine.emit statement)

end Machine

/-- What taking a part of a try construct comes to. -/
inductive Taken where
  /-- A container is open for the part. -/
  | opened (machine : Machine)
  /-- The part has changed the construct, and there is nothing to lower. -/
  | changed (construct : TryConstruct)

/-- Take a part of a try construct, given the construct without the part. -/
def takePart
    (context : Context) (machine : Machine) (outer : List PendingTry) (pending : PendingTry)
    (part : Part) : Except LowerError Taken :=
  match part.request context pending.node with
  | .container at_ items finish =>
      ({ machine with
        tries := pending :: outer
        bindings := finish.bound?.toList ++ machine.bindings }.openFrame
          at_ items false finish).map .opened
  | .change update => .ok (.changed (update pending.construct))

/-! ## Steps

There are two places where the machine may find nothing to work on: a statement is to be added
and no container is open, or a try construct is to be gone on with and there is none.  What it
does there is a parameter of all its functions.  The machine itself leaves the state as it is. -/

section Steps

variable (context : Context) (fallback : Machine → Except LowerError Machine)

/-- Go on with a try construct: take one part after another until a container is open, or
emit the construct once every part is taken. -/
def advancePartsOr
    (machine : Machine) (outer : List PendingTry) (node : Node)
    (construct : TryConstruct) : List Part → Except LowerError Machine
  | [] => { machine with tries := outer }.emitOr fallback (.attempt construct)
  | part :: parts =>
      match takePart context machine outer { node, construct, parts } part with
      | .error error => .error error
      | .ok (.opened next) => .ok next
      | .ok (.changed changed) => advancePartsOr machine outer node changed parts

/-- Go on with the innermost try construct after its construct has changed. -/
def resumeTryOr
    (machine : Machine) (change : TryConstruct → TryConstruct) : Except LowerError Machine :=
  match machine.tries with
  | [] => fallback machine
  | pending :: outer =>
      advancePartsOr context fallback machine outer pending.node (change pending.construct)
        pending.parts

/-- Lower one node in statement position. -/
def visitOr (machine : Machine) (item : Placed) : Except LowerError Machine :=
  let node := item.node
  match item.role with
  | .attempt =>
      advancePartsOr context fallback machine machine.tries node (.blank node.span)
        (tryParts context.language node)
  | .throw =>
      if context.language.isRethrow context.source machine.binding? node then
        machine.emitOr fallback (.rethrow node.span)
      else
        machine.emitOr fallback (.throw node.span)
  | .expressionStatement =>
      match context.language.significant node with
      | [] => .error (.noExpression node.line node.kind)
      | expression :: _ =>
          if expression.role == .throw then
            if context.language.isRethrow context.source machine.binding?
                expression.node then
              machine.emitOr fallback (.expressionRethrow node.span)
            else
              machine.emitOr fallback (.expressionThrow node.span)
          else
            machine.openFrame node (context.language.significant expression.node) true
              (.expression node.span)
  | .block =>
      machine.openFrame node (context.language.significant node) false
        (.other node.span node.kind)
  | .handler | .orelse | .finalizer | .comment | .other =>
      machine.openFrame node (context.language.significant node) true
        (.other node.span node.kind)

/-- Finish a container that has been taken off the stack. -/
def closeOr (machine : Machine) (frame : Frame) : Except LowerError Machine :=
  let done := frame.done.reverse
  match frame.finish with
  | .root => .ok { machine with statements := done }
  | .other span kind => machine.emitOr fallback (.other span kind done)
  | .expression span => machine.emitOr fallback (.expression span done)
  | .tryBody | .handler _ | .orelse | .finalizer =>
      resumeTryOr context fallback
        { machine with bindings := frame.finish.around machine.bindings }
        (frame.finish.change done)

/-- One step with the innermost container given: lower the container's next node, or close
the container. -/
def stepOr
    (machine : Machine) (frame : Frame) (frames : List Frame) : Except LowerError Machine :=
  match frame.pending with
  | [] => closeOr context fallback { machine with frames } frame
  | item :: pending =>
      if frame.flatten && item.role == .other then
        .ok { machine with
          frames :=
            { frame with
              pending := context.language.significant item.node ++ pending } :: frames }
      else
        visitOr context fallback { machine with frames := { frame with pending } :: frames } item

/-- How the machine goes on with a try construct. -/
abbrev advanceParts := advancePartsOr context .ok

/-- How the machine goes on with the innermost try construct. -/
abbrev resumeTry := resumeTryOr context .ok

/-- How the machine lowers one node. -/
abbrev visit := visitOr context .ok

/-- How the machine finishes a container. -/
abbrev close := closeOr context .ok

/-- One step of the machine. -/
abbrev step := stepOr context .ok

end Steps

/-- A statement that is added with no container open leaves the state as it is. -/
@[simp] theorem Machine.emitOr_ok
    (machine : Machine) (statement : Statement) :
    machine.emitOr .ok statement = .ok (machine.emit statement) := by
  unfold Machine.emitOr
  split
  · next hnone =>
      rw [Machine.emit, List.isEmpty_iff.mp hnone]
  · rfl

theorem advanceParts_nil
    (context : Context) (machine : Machine) (outer : List PendingTry) (node : Node)
    (construct : TryConstruct) :
    advanceParts context machine outer node construct [] =
      .ok ({ machine with tries := outer }.emit (.attempt construct)) :=
  Machine.emitOr_ok _ _

/-- Going on with a try construct is going on with what its next part asks for. -/
theorem advancePartsOr_cons
    (context : Context) (fallback : Machine → Except LowerError Machine) (machine : Machine)
    (outer : List PendingTry) (node : Node) (construct : TryConstruct) (part : Part)
    (parts : List Part) :
    advancePartsOr context fallback machine outer node construct (part :: parts) =
      match part.request context node with
      | .container at_ items finish =>
          { machine with
            tries := { node, construct, parts } :: outer
            bindings := finish.bound?.toList ++ machine.bindings }.openFrame
              at_ items false finish
      | .change update =>
          advancePartsOr context fallback machine outer node (update construct) parts := by
  rw [advancePartsOr, takePart]
  cases part.request context node with
  | container at_ items finish =>
      dsimp only
      cases { machine with
        tries := { node, construct, parts } :: outer
        bindings := finish.bound?.toList ++ machine.bindings }.openFrame at_ items false
          finish <;> rfl
  | change update => rfl

theorem resumeTryOr_of_tries
    {machine : Machine} {pending : PendingTry} {outer : List PendingTry}
    (h : machine.tries = pending :: outer) (context : Context)
    (fallback : Machine → Except LowerError Machine) (change : TryConstruct → TryConstruct) :
    resumeTryOr context fallback machine change =
      advancePartsOr context fallback machine outer pending.node (change pending.construct)
        pending.parts := by
  rw [resumeTryOr, h]

/-- Closing a part goes on with the try construct that it is a part of. -/
theorem closeOr_of_isPart
    {frame : Frame} (h : frame.finish.isPart = true) (context : Context)
    (fallback : Machine → Except LowerError Machine) (machine : Machine) :
    closeOr context fallback machine frame =
      resumeTryOr context fallback
        { machine with bindings := frame.finish.around machine.bindings }
        (frame.finish.change frame.done.reverse) := by
  unfold closeOr
  cases hfinish : frame.finish with
  | root | other | expression =>
      rw [hfinish] at h
      cases h
  | _ => rfl

/-- What closing a container does: the root gives the statements of the file, a part goes on
with its try construct, and any other container becomes a statement. -/
theorem close_cases
    {context : Context} {machine next : Machine} {frame : Frame}
    (h : close context machine frame = .ok next) :
    (frame.finish = .root ∧ next = { machine with statements := frame.done.reverse }) ∨
      (frame.finish ≠ .root ∧ frame.finish.isPart = false ∧
        ∃ statement, next = machine.emit statement) ∨
      (frame.finish.isPart = true ∧
        resumeTry context { machine with bindings := frame.finish.around machine.bindings }
          (frame.finish.change frame.done.reverse) = .ok next) := by
  cases hpart : frame.finish.isPart with
  | true =>
      rw [close, closeOr_of_isPart hpart] at h
      exact .inr (.inr ⟨rfl, h⟩)
  | false =>
      simp only [close, closeOr, Machine.emitOr_ok] at h
      cases hfinish : frame.finish with
      | root =>
          rw [hfinish] at h
          exact .inl ⟨rfl, (Except.ok.inj h).symm⟩
      | other | expression =>
          rw [hfinish] at h
          exact .inr (.inl ⟨by simp, rfl, _, (Except.ok.inj h).symm⟩)
      | _ =>
          rw [hfinish] at hpart
          cases hpart

/-- An empty stack has room for the root. -/
theorem Machine.openFrame_root
    (root : Node) (items : List Placed) :
    Machine.empty.openFrame root items false .root =
      .ok { Machine.empty with
        frames := [{ pending := items, done := [], flatten := false, finish := .root }] } :=
  rfl

/-! ## Termination -/

/-- A bound on the steps that an open container still causes. -/
def Frame.weight (frame : Frame) : Nat :=
  1 + Placed.weightList frame.pending

/-- A bound on the steps that a pending try construct still causes. -/
def PendingTry.weight (pending : PendingTry) : Nat :=
  1 + partsWeight pending.parts

/-- A bound on the steps that open containers still cause. -/
def framesWeight : List Frame → Nat
  | [] => 0
  | frame :: frames => frame.weight + framesWeight frames

/-- A bound on the steps that pending try constructs still cause. -/
def triesWeight : List PendingTry → Nat
  | [] => 0
  | pending :: tries => pending.weight + triesWeight tries

/-- A bound on the steps that the machine can still take. -/
def Machine.weight (machine : Machine) : Nat :=
  framesWeight machine.frames + triesWeight machine.tries

theorem Machine.weight_emit
    (machine : Machine) (statement : Statement) :
    (machine.emit statement).weight = machine.weight := by
  unfold Machine.emit
  split
  · rfl
  · next frame frames h => simp [Machine.weight, framesWeight, Frame.weight, h]

theorem Machine.weight_openFrame
    {machine next : Machine} {at_ : Node} {items : List Placed} {flatten : Bool}
    {finish : Finish}
    (h : machine.openFrame at_ items flatten finish = .ok next) :
    next.weight = machine.weight + 1 + Placed.weightList items := by
  unfold Machine.openFrame at h
  split at h
  · cases h
  · cases h
    simp only [Machine.weight, framesWeight, Frame.weight]
    omega

theorem weightList_lt_of_blockRequest
    {context : Context} {clauseNode at_ : Node} {items : List Placed} {finish final : Finish}
    (h : blockRequest context clauseNode finish = .container at_ items final) :
    Placed.weightList items < clauseNode.weight := by
  unfold blockRequest at h
  split at h
  · next block hblock =>
      cases h
      have := weightList_significant_child_lt context.language (clauseBlock?_mem hblock)
      omega
  · cases h

/-- The nodes that a part asks for weigh less than the part. -/
theorem weightList_lt_of_request
    {context : Context} {node at_ : Node} {part : Part} {items : List Placed}
    {finish : Finish} (h : part.request context node = .container at_ items finish) :
    Placed.weightList items < part.weight := by
  cases part with
  | statements items =>
      cases h
      rw [Part.weight]
      omega
  | handler clauseNode =>
      rw [Part.request] at h
      split at h
      · next body hbody =>
          cases h
          have := weightList_significant_child_lt context.language (presentBody?_mem hbody)
          rw [Part.weight]
          omega
      · cases h
  | _ clauseNode => exact weightList_lt_of_blockRequest h

/-- A container that is opened for a part is a part. -/
theorem isPart_of_request
    {context : Context} {node at_ : Node} {part : Part} {items : List Placed}
    {finish : Finish} (h : part.request context node = .container at_ items finish) :
    finish.isPart = true := by
  cases part with
  | statements items =>
      cases h
      rfl
  | handler clauseNode =>
      rw [Part.request] at h
      split at h <;> cases h
      rfl
  | _ clauseNode =>
      rw [Part.request, blockRequest] at h
      split at h <;> cases h
      rfl

theorem weight_advanceParts_le
    {context : Context} {machine next : Machine} {outer : List PendingTry}
    {node : Node} {construct : TryConstruct} {parts : List Part}
    (h : advanceParts context machine outer node construct parts = .ok next) :
    next.weight ≤
      framesWeight machine.frames + triesWeight outer + 1 + partsWeight parts := by
  induction parts generalizing construct with
  | nil =>
      rw [advanceParts_nil] at h
      cases h
      rw [Machine.weight_emit]
      simp only [Machine.weight, partsWeight]
      omega
  | cons part parts ih =>
      rw [advanceParts, advancePartsOr_cons] at h
      rw [partsWeight]
      split at h
      · next at_ items finish hrequest =>
          have hopen := Machine.weight_openFrame h
          have hitems := weightList_lt_of_request hrequest
          simp only [Machine.weight, triesWeight, PendingTry.weight] at hopen ⊢
          omega
      · have := ih h
        omega

theorem weight_resumeTry_le
    {context : Context} {machine next : Machine} {change : TryConstruct → TryConstruct}
    (h : resumeTry context machine change = .ok next) :
    next.weight ≤ machine.weight := by
  rw [resumeTry, resumeTryOr] at h
  split at h
  · cases h
    exact Nat.le_refl _
  · next pending outer htries =>
      have := weight_advanceParts_le h
      simp only [Machine.weight, htries, triesWeight, PendingTry.weight] at this ⊢
      omega

theorem weight_visit_lt
    {context : Context} {machine next : Machine} {item : Placed}
    (h : visit context machine item = .ok next) :
    next.weight < machine.weight + item.node.weight := by
  have hpos := Node.weight_pos item.node
  have hopen :
      ∀ {flatten : Bool} {finish : Finish},
        machine.openFrame item.node (context.language.significant item.node) flatten
          finish = .ok next →
        next.weight < machine.weight + item.node.weight := by
    intro flatten finish hframe
    have hweight := Machine.weight_openFrame hframe
    have hlt := weightList_significant_lt context.language item.node
    omega
  simp only [visit, visitOr, Machine.emitOr_ok] at h
  split at h
  · have hadvance := weight_advanceParts_le h
    have hparts := partsWeight_tryParts_lt context.language item.node
    simp only [Machine.weight] at hadvance ⊢
    omega
  · split at h <;> cases h <;> rw [Machine.weight_emit] <;> omega
  · split at h
    · cases h
    · next expression rest hsignificant =>
        split at h
        · split at h <;> cases h <;> rw [Machine.weight_emit] <;> omega
        · have hweight := Machine.weight_openFrame h
          have hmem : expression.node ∈ item.node.children :=
            node_mem_of_mem_significant
              (hsignificant ▸ List.mem_cons_self)
          have hlt := weightList_significant_child_lt context.language hmem
          omega
  · exact hopen h
  all_goals exact hopen h

theorem weight_close_le
    {context : Context} {machine next : Machine} {frame : Frame}
    (h : close context machine frame = .ok next) :
    next.weight ≤ machine.weight := by
  rcases close_cases h with ⟨-, rfl⟩ | ⟨-, -, statement, rfl⟩ | ⟨-, hresume⟩
  · exact Nat.le_refl _
  · exact Nat.le_of_eq (Machine.weight_emit ..)
  · have hle := weight_resumeTry_le hresume
    exact hle

/-- A step makes the machine lighter. -/
theorem weight_step_lt
    {context : Context} {machine next : Machine} {frame : Frame} {frames : List Frame}
    (hframes : machine.frames = frame :: frames)
    (h : step context machine frame frames = .ok next) :
    next.weight < machine.weight := by
  rw [step, stepOr] at h
  split at h
  · have := weight_close_le h
    simp only [Machine.weight, hframes, framesWeight, Frame.weight] at this ⊢
    omega
  · next item pending hpending =>
      split at h
      · cases h
        have hlt := weightList_significant_lt context.language item.node
        simp only [Machine.weight, hframes, framesWeight, Frame.weight, hpending,
          Placed.weightList_append, Placed.weightList_cons]
        omega
      · have := weight_visit_lt h
        simp only [Machine.weight, hframes, framesWeight, Frame.weight, hpending,
          Placed.weightList_cons] at this ⊢
        omega

/-! ## Running -/

/-- Run the machine until no container is open. -/
def run
    (context : Context) (machine : Machine) : Except LowerError (List Statement) :=
  match hframes : machine.frames with
  | [] => .ok machine.statements
  | frame :: frames =>
      match hstep : step context machine frame frames with
      | .error error => .error error
      | .ok next =>
          have := weight_step_lt hframes hstep
          run context next
termination_by machine.weight

theorem run_of_no_frames
    {context : Context} {machine : Machine} (h : machine.frames = []) :
    run context machine = .ok machine.statements := by
  rw [run]
  split
  · rfl
  · next hframes => simp [h] at hframes

theorem run_of_frames
    {context : Context} {machine : Machine} {frame : Frame} {frames : List Frame}
    (h : machine.frames = frame :: frames) :
    run context machine = step context machine frame frames >>= run context := by
  rw [run]
  split
  · next hnone => simp [h] at hnone
  · next first rest hframes =>
      obtain ⟨rfl, rfl⟩ := List.cons.inj (h.symm.trans hframes)
      split
      · next error hstep =>
          rw [hstep]
          rfl
      · next next hstep =>
          dsimp only
          rw [hstep]
          rfl

/-- The statements of a parse tree. -/
def lowerRoot
    (context : Context) (root : Node) : Except LowerError (List Statement) :=
  match Machine.empty.openFrame root (context.language.significant root) false .root with
  | .error error => .error error
  | .ok machine => run context machine

/-- The statement model of a parsed file. -/
def lower
    (language : Language) (path : String) (source : List UInt8) (tree : Tree) :
    Except LowerError SyntaxTree :=
  match lowerRoot { language, source } tree.root with
  | .error error => .error error
  | .ok statements =>
      .ok { path, language := language.id, statements, hasParseErrors := tree.hasError }

end HandlerLint.Lowering
