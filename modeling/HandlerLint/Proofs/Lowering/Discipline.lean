import Mathlib.Data.List.Forall2
import HandlerLint.Proofs.Lowering.Throws
import HandlerLint.Proofs.Search.Report

/-!
# The stacks of the machine go together

The machine keeps three stacks: the open containers, the try constructs that are being put
together and the names that are bound.  Between two steps each of the latter two can be read
off the first.  The names are those of the open handler bodies, and the try constructs are
those that the open parts belong to, one for each part and in the same order.  The root is
the lowest container.

The machine does nothing where a statement is added with no container open, or a try
construct is gone on with and there is none.  Neither ever happens: whatever the machine did
there instead, its steps would be the same.  So the root is the last container to be closed,
and a run that gets to its end closes it once.
-/

namespace HandlerLint.Lowering

open Source

variable {context : Context}

/-! ## Reading the stacks off the open containers -/

/-- Whether a container is the root. -/
def Finish.isRoot : Finish → Bool
  | .root => true
  | _ => false

/-- What the open containers become, innermost first. -/
def Machine.finishes (machine : Machine) : List Finish :=
  machine.frames.map (·.finish)

/-- A part of a try node opens a container. -/
inductive Opens (context : Context) : Part → Finish → Prop
  | statements {items : List Placed} : Opens context (.statements items) .tryBody
  | handler {node body : Node}
      (hbody : presentBody? (context.language.handlerParts context.source node) = some body) :
      Opens context (.handler node)
        (.handler (blankClause node (context.language.handlerParts context.source node)))
  | orelse {node block : Node} (hblock : clauseBlock? context.language node = some block) :
      Opens context (.orelse node) .orelse
  | finalizer {node block : Node} (hblock : clauseBlock? context.language node = some block) :
      Opens context (.finalizer node) .finalizer

/-- A container belongs to a try construct: it was opened for the part of the try node that
comes right before the parts that are left. -/
def Belongs (context : Context) (finish : Finish) (pending : PendingTry) : Prop :=
  ∃ before part, tryParts context.language pending.node = before ++ part :: pending.parts ∧
    Opens context part finish

/-- The lowest of some containers is the root, and no other one is. -/
inductive OverRoot : List Finish → Prop
  | root : OverRoot [.root]
  | above {finish : Finish} {finishes : List Finish} (hfinish : finish.isRoot = false)
      (hrest : OverRoot finishes) : OverRoot (finish :: finishes)

/-- The stacks of the machine go together while the root is open. -/
structure Machine.Disciplined (context : Context) (machine : Machine) : Prop where
  bindings : machine.bindings = machine.finishes.filterMap Finish.bound?
  tries : List.Forall₂ (Belongs context) (machine.finishes.filter Finish.isPart) machine.tries
  overRoot : OverRoot machine.finishes

/-- Nothing is left on the stacks. -/
structure Machine.Cleared (machine : Machine) : Prop where
  frames : machine.frames = []
  tries : machine.tries = []
  bindings : machine.bindings = []

/-- The states that the machine comes to on a parse tree. -/
inductive Reached (context : Context) (root : Node) : Machine → Prop
  | start {machine : Machine}
      (hopen : Machine.empty.openFrame root (context.language.significant root) false .root =
        .ok machine) :
      Reached context root machine
  | step {machine next : Machine} {frame : Frame} {frames : List Frame}
      (hreached : Reached context root machine) (hframes : machine.frames = frame :: frames)
      (hstep : Lowering.step context machine frame frames = .ok next) :
      Reached context root next

theorem Finish.isRoot_iff
    (finish : Finish) :
    finish.isRoot = true ↔ finish = .root := by
  cases finish <;> simp [Finish.isRoot]

theorem Finish.isRoot_of_isPart
    {finish : Finish} (h : finish.isPart = true) :
    finish.isRoot = false := by
  cases finish with
  | root => cases h
  | _ => rfl

theorem Finish.bound?_of_isPart_eq_false
    {finish : Finish} (h : finish.isPart = false) :
    finish.bound? = none := by
  cases finish with
  | handler => cases h
  | _ => rfl

/-- Outside a container the names are those of the containers around it. -/
theorem Finish.around_filterMap
    (finish : Finish) (finishes : List Finish) :
    finish.around ((finish :: finishes).filterMap Finish.bound?) =
      finishes.filterMap Finish.bound? := by
  cases finish <;> rfl

theorem Opens.isPart
    {part : Part} {finish : Finish} (h : Opens context part finish) :
    finish.isPart = true ∧ finish.isRoot = false := by
  cases h <;> exact ⟨rfl, rfl⟩

theorem OverRoot.ne_nil
    {finishes : List Finish} (h : OverRoot finishes) :
    finishes ≠ [] := by
  cases h <;> exact List.cons_ne_nil _ _

theorem OverRoot.of_cons
    {finish : Finish} {finishes : List Finish} (h : OverRoot (finish :: finishes))
    (hfinish : finish.isRoot = false) :
    OverRoot finishes := by
  cases h with
  | root => cases hfinish
  | above _ hrest => exact hrest

theorem OverRoot.eq_nil_of_cons
    {finish : Finish} {finishes : List Finish} (h : OverRoot (finish :: finishes))
    (hfinish : finish.isRoot = true) :
    finishes = [] := by
  cases h with
  | root => rfl
  | above hother _ =>
      rw [hother] at hfinish
      cases hfinish

/-! ## Steps keep the stacks together -/

@[simp] theorem Machine.finishes_emit
    (machine : Machine) (statement : Statement) :
    (machine.emit statement).finishes = machine.finishes := by
  unfold Machine.emit Machine.finishes
  split
  · rfl
  · next frame frames hframes => simp [hframes]

theorem Machine.Disciplined.emit
    {machine : Machine} (h : machine.Disciplined context) (statement : Statement) :
    (machine.emit statement).Disciplined context := by
  have hbindings : (machine.emit statement).bindings = machine.bindings := by
    unfold Machine.emit
    split <;> rfl
  have htries : (machine.emit statement).tries = machine.tries := by
    unfold Machine.emit
    split <;> rfl
  refine ⟨?_, ?_, ?_⟩
  · rw [hbindings, Machine.finishes_emit]
    exact h.bindings
  · rw [htries, Machine.finishes_emit]
    exact h.tries
  · rw [Machine.finishes_emit]
    exact h.overRoot

/-- A container that is no part of a try construct is opened above the other ones. -/
theorem Machine.Disciplined.openOther
    {machine next : Machine} {at_ : Node} {items : List Placed} {flatten : Bool}
    {finish : Finish} (hmachine : machine.Disciplined context)
    (hpart : finish.isPart = false) (hbound : finish.bound? = none)
    (hfinish : finish.isRoot = false)
    (h : machine.openFrame at_ items flatten finish = .ok next) :
    next.Disciplined context := by
  rw [openFrame_eq_ok h]
  refine ⟨?_, ?_, .above hfinish hmachine.overRoot⟩
  · simp only [Machine.finishes, List.map_cons, List.filterMap_cons, hbound]
    exact hmachine.bindings
  · simp only [Machine.finishes, List.map_cons, List.filter_cons, hpart, Bool.false_eq_true,
      if_false]
    exact hmachine.tries

/-- A part of a try construct is opened above the other containers, together with the
construct and with what the part binds. -/
theorem Machine.Disciplined.openPart
    {machine : Machine} {outer : List PendingTry} {pending : PendingTry} {items : List Placed}
    {finish : Finish} (hmachine : { machine with tries := outer }.Disciplined context)
    (hpart : finish.isPart = true) (hfinish : finish.isRoot = false)
    (hbelongs : Belongs context finish pending) :
    Machine.Disciplined context
      { machine with
        frames := { pending := items, done := [], flatten := false, finish } :: machine.frames
        tries := pending :: outer
        bindings := finish.bound?.toList ++ machine.bindings } := by
  have hbindings := hmachine.bindings
  have htries := hmachine.tries
  simp only [Machine.finishes] at hbindings htries
  refine ⟨?_, ?_, .above hfinish hmachine.overRoot⟩
  · simp only [Machine.finishes, List.map_cons, List.filterMap_cons, hbindings]
    cases finish.bound? <;> rfl
  · simp only [Machine.finishes, List.map_cons, List.filter_cons, hpart, if_true]
    exact .cons hbelongs htries

theorem opens_of_request
    {node at_ : Node} {part : Part} {items : List Placed} {finish : Finish}
    (h : part.request context node = .container at_ items finish) :
    Opens context part finish := by
  cases part with
  | statements items =>
      cases h
      exact .statements
  | handler clause =>
      rw [Part.request] at h
      split at h
      · next body hbody =>
          cases h
          exact .handler hbody
      · cases h
  | orelse clause =>
      rw [Part.request, blockRequest] at h
      split at h
      · next block hblock =>
          cases h
          exact .orelse hblock
      · cases h
  | finalizer clause =>
      rw [Part.request, blockRequest] at h
      split at h
      · next block hblock =>
          cases h
          exact .finalizer hblock
      · cases h

/-- What going on with a part of a try construct does to the stacks: nothing before the next
part is gone on with, or it opens a container for the part. -/
theorem advanceParts_cons_opens
    {machine next : Machine} {outer : List PendingTry} {node : Node}
    {construct : TryConstruct} {part : Part} {parts : List Part}
    (h : advanceParts context machine outer node construct (part :: parts) = .ok next) :
    (∃ changed, advanceParts context machine outer node changed parts = .ok next) ∨
      ∃ items finish, Opens context part finish ∧
        next =
          { machine with
            frames := { pending := items, done := [], flatten := false, finish } :: machine.frames
            tries := { node, construct, parts } :: outer
            bindings := finish.bound?.toList ++ machine.bindings } := by
  rw [advanceParts, advancePartsOr_cons] at h
  split at h
  · next at_ items finish hrequest =>
      exact .inr ⟨items, finish, opens_of_request hrequest, openFrame_eq_ok h⟩
  · exact .inl ⟨_, h⟩

theorem disciplined_of_advanceParts
    {machine next : Machine} {outer : List PendingTry} {node : Node}
    {construct : TryConstruct} {parts : List Part}
    (hmachine : { machine with tries := outer }.Disciplined context)
    (hparts : parts <:+ tryParts context.language node)
    (h : advanceParts context machine outer node construct parts = .ok next) :
    next.Disciplined context := by
  induction parts generalizing construct with
  | nil =>
      rw [advanceParts_nil] at h
      cases h
      exact hmachine.emit _
  | cons part parts ih =>
      rcases advanceParts_cons_opens h with ⟨changed, hrest⟩ | ⟨items, finish, hopens, rfl⟩
      · exact ih ((List.suffix_cons part parts).trans hparts) hrest
      · obtain ⟨before, hbefore⟩ := hparts
        exact hmachine.openPart hopens.isPart.1 hopens.isPart.2
          ⟨before, part, hbefore.symm, hopens⟩

/-- Closing a part goes on with the try construct that the part belongs to. -/
theorem disciplined_of_resumeTry
    {machine next : Machine} {finish : Finish} {change : TryConstruct → TryConstruct}
    (h : resumeTry context machine change = .ok next)
    (hbindings : machine.bindings = machine.finishes.filterMap Finish.bound?)
    (htries : List.Forall₂ (Belongs context)
      (finish :: machine.finishes.filter Finish.isPart) machine.tries)
    (hroot : OverRoot machine.finishes) :
    next.Disciplined context := by
  rw [resumeTry, resumeTryOr] at h
  cases hstack : machine.tries with
  | nil =>
      rw [hstack] at htries
      cases htries
  | cons pending outer =>
      rw [hstack] at htries
      obtain ⟨⟨before, part, hparts, -⟩, houter⟩ := List.forall₂_cons.mp htries
      simp only [hstack] at h
      have hkept : ({ machine with tries := outer } : Machine).Disciplined context :=
        ⟨hbindings, houter, hroot⟩
      have hsuffix : pending.parts <:+ tryParts context.language pending.node :=
        ⟨before ++ [part], by simp [hparts]⟩
      exact disciplined_of_advanceParts hkept hsuffix h

/-- Closing a container other than the root leaves the stacks of the containers around it. -/
theorem disciplined_of_close
    {machine next : Machine} {frame : Frame} {frames : List Frame}
    (hmachine : machine.Disciplined context) (hframes : machine.frames = frame :: frames)
    (hother : frame.finish.isRoot = false)
    (h : close context { machine with frames } frame = .ok next) :
    next.Disciplined context := by
  have hfinishes : machine.finishes = frame.finish :: frames.map (·.finish) := by
    rw [Machine.finishes, hframes, List.map_cons]
  have hbindings := hmachine.bindings
  have htries := hmachine.tries
  have hroot := hmachine.overRoot
  rw [hfinishes] at hbindings htries hroot
  have hrest := hroot.of_cons hother
  rcases close_cases h with ⟨hfinish, -⟩ | ⟨-, hpart, statement, rfl⟩ | ⟨hpart, hresume⟩
  · rw [hfinish] at hother
    cases hother
  · rw [List.filterMap_cons, Finish.bound?_of_isPart_eq_false hpart] at hbindings
    rw [List.filter_cons_of_neg (by simp [hpart])] at htries
    have hkept : ({ machine with frames } : Machine).Disciplined context :=
      ⟨hbindings, htries, hrest⟩
    exact hkept.emit _
  · rw [List.filter_cons_of_pos hpart] at htries
    refine disciplined_of_resumeTry hresume ?_ htries hrest
    -- What the container bound is the first of the names and goes with it.
    rw [hbindings]
    exact frame.finish.around_filterMap _

theorem disciplined_of_visit
    {machine next : Machine} {item : Placed} (hmachine : machine.Disciplined context)
    (h : visit context machine item = .ok next) :
    next.Disciplined context := by
  simp only [visit, visitOr, Machine.emitOr_ok] at h
  split at h
  · exact disciplined_of_advanceParts hmachine (List.suffix_refl _) h
  · split at h <;> cases h <;> exact hmachine.emit _
  · split at h
    · cases h
    · split at h
      · split at h <;> cases h <;> exact hmachine.emit _
      · exact hmachine.openOther rfl rfl rfl h
  all_goals exact hmachine.openOther rfl rfl rfl h

/-- A step that does not close the root keeps the stacks together. -/
theorem disciplined_of_step
    {machine next : Machine} {frame : Frame} {frames : List Frame}
    (hmachine : machine.Disciplined context) (hframes : machine.frames = frame :: frames)
    (hother : frame.pending = [] → frame.finish.isRoot = false)
    (h : step context machine frame frames = .ok next) :
    next.Disciplined context := by
  rw [step, stepOr] at h
  cases hpending : frame.pending with
  | nil =>
      simp only [hpending] at h
      exact disciplined_of_close hmachine hframes (hother hpending) h
  | cons item pending =>
      simp only [hpending] at h
      -- Other pending nodes make no other container of the innermost one.
      have hsame (nodes : List Placed) :
          ({ machine with frames := { frame with pending := nodes } :: frames } :
            Machine).finishes = machine.finishes := by
        simp [Machine.finishes, hframes]
      have hkept (nodes : List Placed) :
          ({ machine with frames := { frame with pending := nodes } :: frames } :
            Machine).Disciplined context := by
        refine ⟨?_, ?_, ?_⟩
        · rw [hsame]
          exact hmachine.bindings
        · rw [hsame]
          exact hmachine.tries
        · rw [hsame]
          exact hmachine.overRoot
      split at h
      · cases h
        exact hkept _
      · exact disciplined_of_visit (hkept pending) h

/-- If the root is the innermost container, it is the only one, and nothing is left of the
other stacks. -/
theorem Machine.Disciplined.alone_of_root
    {machine : Machine} {frame : Frame} {frames : List Frame}
    (h : machine.Disciplined context) (hframes : machine.frames = frame :: frames)
    (hfinish : frame.finish = .root) :
    frames = [] ∧ machine.tries = [] ∧ machine.bindings = [] := by
  have hroot := h.overRoot
  have hbindings := h.bindings
  have htries := h.tries
  rw [Machine.finishes, hframes, List.map_cons, hfinish] at hroot hbindings htries
  have hnone := hroot.eq_nil_of_cons rfl
  rw [hnone] at hbindings htries
  exact ⟨List.map_eq_nil_iff.mp hnone, List.forall₂_nil_left_iff.mp htries, hbindings⟩

/-- Closing the root leaves nothing on the stacks. -/
theorem cleared_of_step
    {machine next : Machine} {frame : Frame} {frames : List Frame}
    (hmachine : machine.Disciplined context) (hframes : machine.frames = frame :: frames)
    (hpending : frame.pending = []) (hfinish : frame.finish = .root)
    (h : step context machine frame frames = .ok next) :
    next.Cleared := by
  obtain ⟨hnone, htries, hbindings⟩ := hmachine.alone_of_root hframes hfinish
  simp only [step, stepOr, hpending, closeOr, hfinish] at h
  cases h
  exact ⟨hnone, htries, hbindings⟩

theorem disciplined_of_start
    {root : Node} {machine : Machine}
    (h : Machine.empty.openFrame root (context.language.significant root) false .root =
      .ok machine) :
    machine.Disciplined context := by
  rw [openFrame_eq_ok h]
  exact ⟨rfl, .nil, .root⟩

/-- In every state that the machine comes to the stacks go together, and they are empty once
the root is closed. -/
theorem Reached.disciplined
    {root : Node} {machine : Machine} (h : Reached context root machine) :
    machine.Disciplined context ∨ machine.Cleared := by
  induction h with
  | start hopen => exact .inl (disciplined_of_start hopen)
  | @step machine next frame frames _ hframes hstep ih =>
      rcases ih with hmachine | hcleared
      · by_cases hroot : frame.pending = [] ∧ frame.finish = .root
        · exact .inr (cleared_of_step hmachine hframes hroot.1 hroot.2 hstep)
        · refine .inl (disciplined_of_step hmachine hframes (fun hpending => ?_) hstep)
          rw [← Bool.not_eq_true, Finish.isRoot_iff]
          exact fun hfinish => hroot ⟨hpending, hfinish⟩
      · rw [hcleared.frames] at hframes
        cases hframes

/-! ## Where the machine finds nothing to work on -/

section Fallback

variable {machine : Machine}

theorem Machine.emitOr_of_frames
    (h : machine.frames ≠ []) (fallback : Machine → Except LowerError Machine)
    (statement : Statement) :
    machine.emitOr fallback statement = .ok (machine.emit statement) := by
  rw [Machine.emitOr, if_neg]
  exact fun hnone => h (List.isEmpty_iff.mp hnone)

theorem advancePartsOr_eq
    (h : machine.frames ≠ []) (fallback : Machine → Except LowerError Machine)
    (outer : List PendingTry) (node : Node) (construct : TryConstruct) (parts : List Part) :
    advancePartsOr context fallback machine outer node construct parts =
      advanceParts context machine outer node construct parts := by
  induction parts generalizing construct with
  | nil =>
      have hsame : ({ machine with tries := outer } : Machine).frames ≠ [] := h
      rw [advanceParts_nil, advancePartsOr, Machine.emitOr_of_frames hsame]
  | cons part parts ih =>
      rw [advanceParts, advancePartsOr_cons, advancePartsOr_cons]
      cases part.request context node with
      | container at_ items finish => rfl
      | change update => exact ih _

theorem resumeTryOr_eq
    (hframes : machine.frames ≠ []) (htries : machine.tries ≠ [])
    (fallback : Machine → Except LowerError Machine) (change : TryConstruct → TryConstruct) :
    resumeTryOr context fallback machine change = resumeTry context machine change := by
  obtain ⟨pending, outer, hstack⟩ := List.exists_cons_of_ne_nil htries
  rw [resumeTry, resumeTryOr_of_tries hstack, resumeTryOr_of_tries hstack]
  exact advancePartsOr_eq hframes fallback _ _ _ _

theorem visitOr_eq
    (h : machine.frames ≠ []) (fallback : Machine → Except LowerError Machine)
    (item : Placed) :
    visitOr context fallback machine item = visit context machine item := by
  rw [visit]
  unfold visitOr
  cases item.role with
  | attempt => exact advancePartsOr_eq h fallback _ _ _ _
  | throw => simp only [Machine.emitOr_of_frames h]
  | expressionStatement =>
      cases hnodes : context.language.significant item.node with
      | nil => simp only [hnodes]
      | cons expression rest => simp only [hnodes, Machine.emitOr_of_frames h]
  | _ => rfl

theorem closeOr_eq
    {frame : Frame} (hframes : frame.finish.isRoot = false → machine.frames ≠ [])
    (htries : frame.finish.isPart = true → machine.tries ≠ [])
    (fallback : Machine → Except LowerError Machine) :
    closeOr context fallback machine frame = close context machine frame := by
  cases hpart : frame.finish.isPart with
  | true =>
      rw [close, closeOr_of_isPart hpart, closeOr_of_isPart hpart]
      refine resumeTryOr_eq ?_ ?_ fallback _
      · exact hframes (Finish.isRoot_of_isPart hpart)
      · exact htries hpart
  | false =>
      rw [close]
      unfold closeOr
      cases hfinish : frame.finish with
      | root => rfl
      | other | expression =>
          rw [hfinish] at hframes
          simp only [Machine.emitOr_of_frames (hframes rfl)]
      | _ =>
          rw [hfinish] at hpart
          cases hpart

theorem stepOr_eq
    {frame : Frame} {frames : List Frame} (hframes : frame.finish.isRoot = false → frames ≠ [])
    (htries : frame.finish.isPart = true → machine.tries ≠ [])
    (fallback : Machine → Except LowerError Machine) :
    stepOr context fallback machine frame frames = step context machine frame frames := by
  rw [step]
  unfold stepOr
  cases frame.pending with
  | nil =>
      refine closeOr_eq ?_ ?_ fallback
      · exact hframes
      · exact htries
  | cons item pending =>
      dsimp only
      rw [visitOr_eq (List.cons_ne_nil _ _)]

end Fallback

/-- With a part of a try construct as the innermost container there is a try construct. -/
theorem Machine.Disciplined.tries_ne_nil
    {machine : Machine} {frame : Frame} {frames : List Frame}
    (h : machine.Disciplined context) (hframes : machine.frames = frame :: frames)
    (hpart : frame.finish.isPart = true) :
    machine.tries ≠ [] := by
  have htries := h.tries
  rw [Machine.finishes, hframes, List.map_cons, List.filter_cons_of_pos hpart] at htries
  obtain ⟨pending, outer, -, -, heq⟩ := List.forall₂_cons_left_iff.mp htries
  rw [heq]
  exact List.cons_ne_nil _ _

/-- Where the stacks go together, what the machine would do in its silent branches makes no
difference to a step. -/
theorem Machine.Disciplined.stepOr_eq
    {machine : Machine} {frame : Frame} {frames : List Frame}
    (h : machine.Disciplined context) (hframes : machine.frames = frame :: frames)
    (fallback : Machine → Except LowerError Machine) :
    stepOr context fallback machine frame frames = step context machine frame frames := by
  have hfinishes : machine.finishes = frame.finish :: frames.map (·.finish) := by
    rw [Machine.finishes, hframes, List.map_cons]
  have hroot := h.overRoot
  rw [hfinishes] at hroot
  refine Lowering.stepOr_eq (fun hfinish => ?_) (h.tries_ne_nil hframes) fallback
  have hrest := (hroot.of_cons hfinish).ne_nil
  simpa using hrest

/-! ## Closing the root -/

/-- What the containers become that a run closes, in the order of its steps. -/
def closings (context : Context) (machine : Machine) : List Finish :=
  match hframes : machine.frames with
  | [] => []
  | frame :: frames =>
      match hstep : step context machine frame frames with
      | .error _ => []
      | .ok next =>
          have := weight_step_lt hframes hstep
          (if frame.pending.isEmpty then [frame.finish] else []) ++ closings context next
termination_by machine.weight

/-- What the containers become that are closed while a parse tree is lowered. -/
def rootClosings (context : Context) (root : Node) : List Finish :=
  match Machine.empty.openFrame root (context.language.significant root) false .root with
  | .error _ => []
  | .ok machine => closings context machine

/-- What a run with some result closes last: the root, if it gets to its end. -/
def lastClosing : Except LowerError (List Statement) → List Finish
  | .ok _ => [.root]
  | .error _ => []

theorem closings_of_error
    {machine : Machine} {frame : Frame} {frames : List Frame} {error : LowerError}
    (hframes : machine.frames = frame :: frames)
    (hstep : step context machine frame frames = .error error) :
    closings context machine = [] := by
  rw [closings]
  split
  · rfl
  · next first rest hcons =>
      rw [hframes] at hcons
      obtain ⟨rfl, rfl⟩ := List.cons.inj hcons
      split
      · rfl
      · next other hother => simp [hstep] at hother

theorem closings_of_step
    {machine next : Machine} {frame : Frame} {frames : List Frame}
    (hframes : machine.frames = frame :: frames)
    (hstep : step context machine frame frames = .ok next) :
    closings context machine =
      (if frame.pending.isEmpty then [frame.finish] else []) ++ closings context next := by
  rw [closings]
  split
  · next hnil => simp [hframes] at hnil
  · next first rest hcons =>
      rw [hframes] at hcons
      obtain ⟨rfl, rfl⟩ := List.cons.inj hcons
      split
      · next error herror => simp [hstep] at herror
      · next other hother =>
          rw [hstep] at hother
          cases hother
          rfl

theorem Machine.Cleared.closings_eq
    {machine : Machine} (h : machine.Cleared) :
    closings context machine = [] := by
  rw [closings]
  split
  · rfl
  · next hcons => simp [h.frames] at hcons

theorem Machine.Cleared.run_eq
    {machine : Machine} (h : machine.Cleared) :
    run context machine = .ok machine.statements :=
  run_of_no_frames h.frames

/-- A run closes other containers first, and the root once it gets to its end. -/
theorem closings_eq_of_run
    {machine : Machine} (h : machine.Disciplined context) :
    ∃ inner, (∀ finish ∈ inner, finish.isRoot = false) ∧
      closings context machine = inner ++ lastClosing (run context machine) := by
  fun_induction run context machine with
  | case1 machine hframes =>
      refine absurd ?_ h.overRoot.ne_nil
      rw [Machine.finishes, hframes, List.map_nil]
  | case2 machine frame frames hframes error hstep =>
      exact ⟨[], List.forall_mem_nil _, closings_of_error hframes hstep⟩
  | case3 machine frame frames hframes next hstep _ ih =>
      rw [closings_of_step hframes hstep]
      by_cases hroot : frame.pending = [] ∧ frame.finish = .root
      · have hcleared := cleared_of_step h hframes hroot.1 hroot.2 hstep
        refine ⟨[], List.forall_mem_nil _, ?_⟩
        rw [hcleared.closings_eq, hcleared.run_eq, hroot.1, hroot.2]
        rfl
      · have hother : frame.pending = [] → frame.finish.isRoot = false := by
          intro hpending
          rw [← Bool.not_eq_true, Finish.isRoot_iff]
          exact fun hfinish => hroot ⟨hpending, hfinish⟩
        obtain ⟨inner, hinner, hrest⟩ := ih (disciplined_of_step h hframes hother hstep)
        rw [hrest, ← List.append_assoc]
        refine ⟨_, fun finish hmem => ?_, rfl⟩
        rcases List.mem_append.mp hmem with hclosed | hlater
        · split at hclosed
          · next hpending =>
              rw [List.mem_singleton.mp hclosed]
              exact hother (List.isEmpty_iff.mp hpending)
          · cases hclosed
        · exact hinner finish hlater

/-- While a parse tree is lowered the names are those of the open handler bodies, the try
constructs are those of the open parts, and the root is the lowest container.  No step depends
on what the machine does where nothing is open.  The root is closed last, and once. -/
theorem machine_stacks_go_together
    (context : Context) (root : Node) :
    (∀ machine, Reached context root machine →
      machine.bindings = machine.finishes.filterMap Finish.bound? ∧
      List.Forall₂ (Belongs context) (machine.finishes.filter Finish.isPart) machine.tries ∧
      (machine.frames = [] ∨ OverRoot machine.finishes) ∧
      ∀ frame frames, machine.frames = frame :: frames →
        (∀ fallback,
          stepOr context fallback machine frame frames = step context machine frame frames) ∧
        (frame.finish = .root →
          frames = [] ∧ machine.tries = [] ∧ machine.bindings = [])) ∧
      (∀ machine frame frames,
        stepOr context .ok machine frame frames = step context machine frame frames) ∧
      ∃ inner, (∀ finish ∈ inner, finish.isRoot = false) ∧
        rootClosings context root = inner ++ lastClosing (lowerRoot context root) := by
  refine ⟨fun machine hreached => ?_, fun machine frame frames => ?_, ?_⟩
  · rcases hreached.disciplined with hmachine | hcleared
    · exact ⟨hmachine.bindings, hmachine.tries, .inr hmachine.overRoot,
        fun frame frames hframes =>
          ⟨hmachine.stepOr_eq hframes, hmachine.alone_of_root hframes⟩⟩
    · have hfinishes : machine.finishes = [] := by
        rw [Machine.finishes, hcleared.frames, List.map_nil]
      rw [hfinishes, hcleared.tries, hcleared.bindings]
      refine ⟨rfl, .nil, .inl hcleared.frames, fun frame frames hframes => ?_⟩
      rw [hcleared.frames] at hframes
      cases hframes
  · rfl
  · unfold rootClosings lowerRoot
    cases hopen :
        Machine.empty.openFrame root (context.language.significant root) false .root with
    | error error => exact ⟨[], List.forall_mem_nil _, rfl⟩
    | ok machine => exact closings_eq_of_run (disciplined_of_start hopen)

/-- The state of the machine after some steps, if it takes that many. -/
def stateAfter? (context : Context) (root : Node) : Nat → Option Machine
  | 0 =>
      (Machine.empty.openFrame root (context.language.significant root) false .root).toOption
  | count + 1 =>
      match stateAfter? context root count with
      | none => none
      | some machine =>
          match machine.frames with
          | [] => none
          | frame :: frames => (step context machine frame frames).toOption

theorem eq_ok_of_toOption
    {α : Type} {result : Except LowerError α} {value : α} (h : result.toOption = some value) :
    result = .ok value := by
  cases result with
  | error error => cases h
  | ok value => rw [Option.some.inj h]

theorem exists_step_of_stateAfter?
    {root : Node} {count : Nat} {next : Machine}
    (h : stateAfter? context root (count + 1) = some next) :
    ∃ machine frame frames, stateAfter? context root count = some machine ∧
      machine.frames = frame :: frames ∧ step context machine frame frames = .ok next := by
  rw [stateAfter?] at h
  split at h
  · cases h
  · next machine hmachine =>
      split at h
      · cases h
      · next frame frames hframes =>
          exact ⟨machine, frame, frames, hmachine, hframes, eq_ok_of_toOption h⟩

theorem Reached.of_stateAfter?
    {root : Node} {count : Nat} {machine : Machine}
    (h : stateAfter? context root count = some machine) :
    Reached context root machine := by
  induction count generalizing machine with
  | zero => exact .start (eq_ok_of_toOption h)
  | succ count ih =>
      obtain ⟨before, frame, frames, hbefore, hframes, hstep⟩ := exists_step_of_stateAfter? h
      exact .step (ih hbefore) hframes hstep

/-- A source with a try construct in the handler of another one. -/
def handlerSource : List UInt8 :=
  "try {} catch (e) { try {} catch {} }".toUTF8.toList

/-- The parse tree of a source with a try construct in a handler. -/
def handlerTree : Tree :=
  { root :=
      Search.lineNode "program" none 0 36
        [Search.lineNode "try_statement" none 0 36
          [Search.lineNode "statement_block" (some "body") 4 6 [],
            Search.lineNode "catch_clause" (some "handler") 7 36
              [Search.lineNode "identifier" (some "parameter") 14 15 [],
                Search.lineNode "statement_block" (some "body") 17 36
                  [Search.lineNode "try_statement" none 19 34
                    [Search.lineNode "statement_block" (some "body") 23 25 [],
                      Search.lineNode "catch_clause" (some "handler") 26 34
                        [Search.lineNode "statement_block" (some "body") 32 34 []]]]]]]
    hasError := false }

/-- After three steps on the sample two try constructs are open, one of them by its
handler. -/
theorem handlerTree_stacks :
    ∃ machine, Reached { language := .javascript, source := handlerSource } handlerTree.root
        machine ∧
      machine.finishes.map Finish.isPart = [true, true, false] ∧
      machine.tries.map (·.node.span.startByte) = [19, 0] ∧
      machine.bindings = [some "e"] ∧
      machine.bindings = machine.finishes.filterMap Finish.bound? ∧
      List.Forall₂ (Belongs { language := .javascript, source := handlerSource })
        (machine.finishes.filter Finish.isPart) machine.tries ∧
      ∃ inner, rootClosings { language := .javascript, source := handlerSource }
        handlerTree.root = inner ++ [.root] := by
  have hstate :
      (stateAfter? { language := .javascript, source := handlerSource } handlerTree.root 3).map
          (fun machine => (machine.finishes.map Finish.isPart,
            machine.tries.map (·.node.span.startByte), machine.bindings)) =
        some ([true, true, false], [19, 0], [some "e"]) := by
    decide +kernel
  have hok :
      (lowerRoot { language := .javascript, source := handlerSource }
        handlerTree.root).isOk = true := by
    decide +kernel
  obtain ⟨statements, hstatements⟩ := Search.exists_eq_ok_of_isOk hok
  obtain ⟨machine, hmachine, hvalues⟩ := Option.map_eq_some_iff.mp hstate
  obtain ⟨hparts, hvalues⟩ := Prod.mk.inj hvalues
  obtain ⟨hstarts, hbindings⟩ := Prod.mk.inj hvalues
  have hreached := Reached.of_stateAfter? hmachine
  obtain ⟨hstacks, -, inner, -, hclosings⟩ :=
    machine_stacks_go_together { language := .javascript, source := handlerSource }
      handlerTree.root
  obtain ⟨hnames, htries, -⟩ := hstacks machine hreached
  rw [hstatements] at hclosings
  exact ⟨machine, hreached, hparts, hstarts, hbindings, hnames, htries, inner, hclosings⟩

end HandlerLint.Lowering
