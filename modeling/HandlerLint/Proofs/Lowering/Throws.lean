import HandlerLint.Proofs.Lowering.Simulation
import HandlerLint.Proofs.Lowering.Success

/-!
# Throws in a run of the machine

A step of the lowering machine that takes a throwing node from the innermost container
adds the statement of that node to the container.  The log of a run lists these nodes with
their statements, in the order of the steps.

What a state has still to log is read off its stacks: the throws among the pending nodes
of a container, under the name that is bound there, then those in the parts that are left
of the innermost try construct, under the name that is bound around the construct, and so
on down to the root.  A step logs the first of these, or none, and leaves the other ones.
A run that succeeds therefore logs all of them.
-/

namespace HandlerLint.Lowering

open Source

variable {context : Context}

/-! ## The log of a run -/

/-- A throwing node and the statement that it was lowered to. -/
structure Thrown where
  item : Placed
  statement : Statement

/-- What visiting a node logs: the node, if it throws by itself, and the statement that is
then the last one of the innermost container. -/
def logged? (context : Context) (item : Placed) (next : Machine) : Option Thrown :=
  if throwsItself context.language item then
    (next.frames.head?.bind (·.done.head?)).map fun statement => { item, statement }
  else none

theorem logged?_eq_none
    {item : Placed} {next : Machine} (h : throwsItself context.language item = false) :
    logged? context item next = none := by
  rw [logged?, h]
  rfl

/-- The throws that a run of the machine lowers, in the order of its steps. -/
def throwLog (context : Context) (machine : Machine) : List Thrown :=
  match hframes : machine.frames with
  | [] => []
  | frame :: frames =>
      match hstep : step context machine frame frames with
      | .error _ => []
      | .ok next =>
          have := weight_step_lt hframes hstep
          (frame.pending.head?.bind (logged? context · next)).toList ++ throwLog context next
termination_by machine.weight

/-- The throws that are lowered with a parse tree. -/
def rootThrowLog (context : Context) (root : Node) : List Thrown :=
  match Machine.empty.openFrame root (context.language.significant root) false .root with
  | .error _ => []
  | .ok machine => throwLog context machine

/-! ## Where lowering goes on -/

/-- Nodes to lower as a container, with the name bound by the innermost handler around
them. -/
structure Inside where
  binding : Option String
  items : List Placed

/-- The nodes that a part of a try construct asks for. -/
def Demand.inside? : Demand → Option Inside
  | .container _ binding items _ => some { binding, items }
  | .change _ => none

/-- The nodes that some parts of a try construct ask for. -/
def partsInside
    (context : Context) (binding : Option String) (node : Node) (parts : List Part) :
    List Inside :=
  parts.filterMap fun part => (part.demand context binding node).inside?

/-- The nodes to which lowering goes on from a node. -/
def itemInside
    (context : Context) (binding : Option String) (item : Placed) : List Inside :=
  if item.role = .attempt then
    partsInside context binding item.node (tryParts context.language item.node)
  else [{ binding, items := openedItems context.language item }]

theorem weightList_le_of_demand
    {binding : Option String} {node : Node} {part : Part} {inside : Inside}
    (h : (part.demand context binding node).inside? = some inside) :
    Placed.weightList inside.items ≤ part.weight := by
  rw [demand_eq] at h
  cases hrequest : part.request context node with
  | container at_ items finish =>
      rw [hrequest] at h
      cases h
      exact Nat.le_of_lt (weightList_lt_of_request hrequest)
  | change update =>
      rw [hrequest] at h
      cases h

theorem weightList_le_of_mem_partsInside
    {binding : Option String} {node : Node} {parts : List Part} {inside : Inside}
    (h : inside ∈ partsInside context binding node parts) :
    Placed.weightList inside.items ≤ partsWeight parts := by
  obtain ⟨part, hmem, hinside⟩ := List.mem_filterMap.mp h
  have hpart := weightList_le_of_demand hinside
  clear h
  induction parts with
  | nil => cases hmem
  | cons first rest ih =>
      rw [partsWeight]
      rcases List.mem_cons.mp hmem with rfl | hmem
      · omega
      · have := ih hmem
        omega

theorem weightList_openedItems_lt
    (language : Language) (item : Placed) :
    Placed.weightList (openedItems language item) < item.node.weight := by
  rcases openedItems_cases language item with hnone | hbelow | ⟨child, hchild, hinside⟩
  · rw [hnone, Placed.weightList_nil]
    exact Node.weight_pos item.node
  · rw [hbelow]
    have := weightList_significant_lt language item.node
    omega
  · rw [hinside]
    have := weightList_significant_child_lt language hchild
    omega

theorem weightList_lt_of_mem_itemInside
    {binding : Option String} {item : Placed} {inside : Inside}
    (h : inside ∈ itemInside context binding item) :
    Placed.weightList inside.items < item.node.weight := by
  unfold itemInside at h
  split at h
  · have hle := weightList_le_of_mem_partsInside h
    have hlt := partsWeight_tryParts_lt context.language item.node
    omega
  · rw [List.mem_singleton] at h
    subst h
    exact weightList_openedItems_lt context.language item

/-! ## Throws by recursion -/

/-- The statement of a node that throws by itself. -/
def thrown? (context : Context) (binding : Option String) (item : Placed) : Option Thrown :=
  match Task.ofItem context binding item with
  | .emit statement => some { item, statement }
  | _ => none

theorem thrown?_eq_none
    {binding : Option String} {item : Placed}
    (h : throwsItself context.language item = false) :
    thrown? context binding item = none := by
  unfold throwsItself at h
  unfold thrown? Task.ofItem
  cases hrole : item.role with
  | throw =>
      simp only [hrole] at h
      cases h
  | expressionStatement =>
      simp only [hrole] at h
      cases hbelow : context.language.significant item.node with
      | nil => simp only [hbelow]
      | cons expression rest =>
          rw [hbelow, List.head?_cons, Option.any_some] at h
          simp only [hbelow, h, Bool.false_eq_true, if_false]
  | _ => rfl

/-- The throws among some nodes and inside them, in the order in which they are lowered. -/
def throwsOf (context : Context) (binding : Option String) : List Placed → List Thrown
  | [] => []
  | item :: items =>
      (thrown? context binding item).toList ++
        (itemInside context binding item).attach.flatMap (fun inside =>
          throwsOf context inside.1.binding inside.1.items) ++
        throwsOf context binding items
termination_by items => Placed.weightList items
decreasing_by
  · have := weightList_lt_of_mem_itemInside inside.2
    rw [Placed.weightList_cons]
    omega
  · have := Node.weight_pos item.node
    rw [Placed.weightList_cons]
    omega

/-- The throws inside some containers. -/
def throwsInside (context : Context) (insides : List Inside) : List Thrown :=
  insides.flatMap fun inside => throwsOf context inside.binding inside.items

theorem partsInside_append
    (binding : Option String) (node : Node) (left right : List Part) :
    partsInside context binding node (left ++ right) =
      partsInside context binding node left ++ partsInside context binding node right :=
  List.filterMap_append

theorem throwsInside_append
    (left right : List Inside) :
    throwsInside context (left ++ right) =
      throwsInside context left ++ throwsInside context right :=
  List.flatMap_append

/-- The throws at a node and inside it. -/
def itemThrows
    (context : Context) (binding : Option String) (item : Placed) : List Thrown :=
  (thrown? context binding item).toList ++
    throwsInside context (itemInside context binding item)

@[simp] theorem throwsOf_nil
    (binding : Option String) :
    throwsOf context binding [] = [] := by
  rw [throwsOf]

theorem throwsOf_cons
    (binding : Option String) (item : Placed) (items : List Placed) :
    throwsOf context binding (item :: items) =
      itemThrows context binding item ++ throwsOf context binding items := by
  have hinside :
      (itemInside context binding item).attach.flatMap (fun inside =>
          throwsOf context inside.1.binding inside.1.items) =
        throwsInside context (itemInside context binding item) := by
    unfold throwsInside
    conv_rhs =>
      rw [← List.attach_map_subtype_val (itemInside context binding item), List.flatMap_map]
  rw [throwsOf, hinside, itemThrows]

theorem throwsOf_append
    (binding : Option String) (left right : List Placed) :
    throwsOf context binding (left ++ right) =
      throwsOf context binding left ++ throwsOf context binding right := by
  induction left with
  | nil => rw [throwsOf_nil, List.nil_append, List.nil_append]
  | cons item left ih =>
      rw [List.cons_append, throwsOf_cons, throwsOf_cons, ih, List.append_assoc]

/-- A node that is no try node has the throws of the opened nodes inside it. -/
theorem itemThrows_of_ne_attempt
    {binding : Option String} {item : Placed} (hrole : item.role ≠ .attempt) :
    itemThrows context binding item =
      (thrown? context binding item).toList ++
        throwsOf context binding (openedItems context.language item) := by
  rw [itemThrows, itemInside, if_neg hrole, throwsInside, List.flatMap_singleton]

/-! ## What a state has still to log -/

/-- The throws in the parts that are left of the innermost try construct. -/
def triesThrows
    (context : Context) (binding : Option String) (tries : List PendingTry) : List Thrown :=
  tries.head?.elim [] fun pending =>
    throwsInside context (partsInside context binding pending.node pending.parts)

/-- The throws that are still to be lowered, read off the stacks. -/
def stackThrows (context : Context) :
    List Frame → List PendingTry → List (Option String) → List Thrown
  | [], _, _ => []
  | frame :: frames, tries, bindings =>
      let around := frame.finish.around bindings
      throwsOf context bindings.head?.join frame.pending ++
        if frame.finish.isPart then
          triesThrows context around.head?.join tries ++
            stackThrows context frames tries.tail around
        else
          stackThrows context frames tries around

/-- The throws that a state of the machine has still to lower. -/
def Machine.throwsLeft (context : Context) (machine : Machine) : List Thrown :=
  stackThrows context machine.frames machine.tries machine.bindings

theorem Machine.throwsLeft_emit
    (machine : Machine) (statement : Statement) :
    (machine.emit statement).throwsLeft context = machine.throwsLeft context := by
  unfold Machine.emit Machine.throwsLeft
  split
  · rfl
  · next frame frames hframes => rw [hframes, stackThrows, stackThrows]

theorem openFrame_eq_ok
    {machine next : Machine} {at_ : Node} {items : List Placed} {flatten : Bool}
    {finish : Finish}
    (h : machine.openFrame at_ items flatten finish = .ok next) :
    next =
      { machine with
        frames := { pending := items, done := [], flatten, finish } :: machine.frames } := by
  unfold Machine.openFrame at h
  split at h
  · cases h
  · cases h
    rfl

/-- What going on with a part of a try construct does: it makes the change that the part asks
for and takes the next part, or opens the container that the part asks for, under the name
that is bound there. -/
theorem advanceParts_cons_cases
    {machine next : Machine} {outer : List PendingTry} {node : Node}
    {construct : TryConstruct} {part : Part} {parts : List Part}
    (h : advanceParts context machine outer node construct (part :: parts) = .ok next) :
    (∃ update, part.demand context machine.binding? node = .change update ∧
        advanceParts context machine outer node (update construct) parts = .ok next) ∨
      ∃ at_ items fill flatten finish bindings,
        part.demand context machine.binding? node =
            .container at_ bindings.head?.join items fill ∧
          finish.isPart = true ∧ finish.around bindings = machine.bindings ∧
          next =
            { machine with
              frames := { pending := items, done := [], flatten, finish } :: machine.frames
              tries := { node, construct, parts } :: outer
              bindings } := by
  rw [advanceParts, advancePartsOr_cons] at h
  split at h
  · next at_ items finish hrequest =>
      have hdemand := demand_eq context node part machine.binding?
      rw [hrequest, Request.demand, Machine.binding?, ← head?_bound] at hdemand
      exact .inr ⟨at_, items, _, false, finish, _, hdemand, isPart_of_request hrequest,
        around_bound _ _, openFrame_eq_ok h⟩
  · next update hrequest =>
      have hdemand := demand_eq context node part machine.binding?
      rw [hrequest] at hdemand
      exact .inl ⟨update, hdemand, h⟩

/-- Going on with a try construct leaves the throws of its parts. -/
theorem throwsLeft_of_advanceParts
    {machine next : Machine} {outer : List PendingTry} {node : Node}
    {construct : TryConstruct} {parts : List Part}
    (h : advanceParts context machine outer node construct parts = .ok next) :
    next.throwsLeft context =
      throwsInside context (partsInside context machine.binding? node parts) ++
        stackThrows context machine.frames outer machine.bindings := by
  induction parts generalizing construct with
  | nil =>
      rw [advanceParts_nil] at h
      cases h
      exact Machine.throwsLeft_emit ..
  | cons part parts ih =>
      rcases advanceParts_cons_cases h with
        ⟨update, hdemand, hrest⟩ |
          ⟨at_, items, fill, flatten, finish, bindings, hdemand, hpart, haround, rfl⟩
      · have hskip :
            partsInside context machine.binding? node (part :: parts) =
              partsInside context machine.binding? node parts := by
          rw [partsInside, List.filterMap_cons, hdemand]
          rfl
        rw [hskip]
        exact ih hrest
      · have hopen :
            partsInside context machine.binding? node (part :: parts) =
              { binding := bindings.head?.join, items } ::
                partsInside context machine.binding? node parts := by
          rw [partsInside, List.filterMap_cons, hdemand]
          rfl
        rw [hopen, throwsInside, List.flatMap_cons, List.append_assoc, Machine.throwsLeft,
          stackThrows]
        simp only [hpart, haround, if_true]
        rfl

theorem throwsLeft_of_resumeTry
    {machine next : Machine} {change : TryConstruct → TryConstruct}
    (h : resumeTry context machine change = .ok next) :
    next.throwsLeft context =
      triesThrows context machine.binding? machine.tries ++
        stackThrows context machine.frames machine.tries.tail machine.bindings := by
  rw [resumeTry, resumeTryOr] at h
  unfold triesThrows
  cases htries : machine.tries with
  | nil =>
      simp only [htries] at h
      cases h
      rw [Machine.throwsLeft, htries]
      rfl
  | cons pending outer =>
      simp only [htries] at h
      exact throwsLeft_of_advanceParts h

/-- Closing a container leaves what is around it. -/
theorem throwsLeft_of_close
    {machine next : Machine} {frame : Frame}
    (hpending : frame.pending = [])
    (h : close context machine frame = .ok next) :
    next.throwsLeft context =
      stackThrows context (frame :: machine.frames) machine.tries machine.bindings := by
  rw [stackThrows, hpending, throwsOf_nil, List.nil_append]
  rcases close_cases h with ⟨hfinish, rfl⟩ | ⟨-, hpart, statement, rfl⟩ | ⟨hpart, hresume⟩
  · simp only [hfinish]
    rfl
  · rw [Machine.throwsLeft_emit, hpart, Finish.around_of_isPart_eq_false hpart]
    rfl
  · rw [hpart]
    exact throwsLeft_of_resumeTry hresume

/-- What visiting a node does: a try node is gone on with part by part, a node that throws by
itself adds its statement, and any other node opens a container with the opened nodes. -/
theorem visit_cases
    {machine next : Machine} {item : Placed}
    (h : visit context machine item = .ok next) :
    (item.role = .attempt ∧
        advanceParts context machine machine.tries item.node (.blank item.node.span)
          (tryParts context.language item.node) = .ok next) ∨
      (item.role ≠ .attempt ∧ throwsItself context.language item = true ∧
        openedItems context.language item = [] ∧
        ∃ statement, Task.ofItem context machine.binding? item = .emit statement ∧
          next = machine.emit statement) ∨
      (item.role ≠ .attempt ∧ throwsItself context.language item = false ∧
        ∃ flatten finish, finish.isPart = false ∧
          (∀ bindings, finish.around bindings = bindings) ∧
          machine.openFrame item.node (openedItems context.language item) flatten finish =
            .ok next) := by
  simp only [visit, visitOr, Machine.emitOr_ok] at h
  unfold Task.ofItem throwsItself openedItems
  cases hrole : item.role with
  | attempt =>
      simp only [hrole] at h
      exact .inl ⟨rfl, h⟩
  | throw =>
      simp only [hrole] at h
      refine .inr (.inl ⟨by decide, rfl, rfl, ?_⟩)
      dsimp only
      split at h
      · next hrethrow =>
          rw [if_pos hrethrow]
          exact ⟨_, rfl, (Except.ok.inj h).symm⟩
      · next hrethrow =>
          rw [if_neg hrethrow]
          exact ⟨_, rfl, (Except.ok.inj h).symm⟩
  | expressionStatement =>
      simp only [hrole] at h
      cases hbelow : context.language.significant item.node with
      | nil =>
          simp only [hbelow] at h
          cases h
      | cons expression rest =>
          simp only [hbelow] at h
          by_cases hthrow : (expression.role == .throw) = true
          · rw [if_pos hthrow] at h
            refine .inr (.inl ⟨by decide, hthrow, if_pos hthrow, ?_⟩)
            simp only [hbelow]
            rw [if_pos hthrow]
            split at h
            · next hrethrow =>
                rw [if_pos hrethrow]
                exact ⟨_, rfl, (Except.ok.inj h).symm⟩
            · next hrethrow =>
                rw [if_neg hrethrow]
                exact ⟨_, rfl, (Except.ok.inj h).symm⟩
          · rw [if_neg hthrow] at h
            refine .inr (.inr ⟨by decide, Bool.eq_false_iff.mpr hthrow, true,
              .expression item.node.span, rfl, fun _ => rfl, ?_⟩)
            simp only
            rw [if_neg hthrow]
            exact h
  | _ =>
      simp only [hrole] at h
      exact .inr (.inr ⟨by decide, rfl, _, .other _ _, rfl, fun _ => rfl, h⟩)

/-- A container that is no part of a try construct adds the throws of its nodes. -/
theorem throwsLeft_of_openFrame
    {machine next : Machine} {at_ : Node} {items : List Placed} {flatten : Bool}
    {finish : Finish} (hpart : finish.isPart = false)
    (haround : ∀ bindings, finish.around bindings = bindings)
    (h : machine.openFrame at_ items flatten finish = .ok next) :
    next.throwsLeft context =
      throwsOf context machine.binding? items ++ machine.throwsLeft context := by
  rw [openFrame_eq_ok h, Machine.throwsLeft, stackThrows]
  simp only [hpart, haround]
  rfl

/-- Visiting a node logs its throw, if it throws by itself, and leaves the throws inside
it. -/
theorem throwsLeft_of_visit
    {machine next : Machine} {item : Placed} (hframes : machine.frames ≠ [])
    (h : visit context machine item = .ok next) :
    itemThrows context machine.binding? item ++ machine.throwsLeft context =
      (logged? context item next).toList ++ next.throwsLeft context := by
  rcases visit_cases h with
    ⟨hrole, hadvance⟩ | ⟨hrole, hthrows, hopened, statement, htask, rfl⟩ |
      ⟨hrole, hthrows, flatten, finish, hpart, haround, hopen⟩
  · have hthrows : throwsItself context.language item = false := by
      rw [throwsItself, hrole]
    rw [itemThrows, thrown?_eq_none hthrows, logged?_eq_none hthrows, itemInside,
      if_pos hrole, throwsLeft_of_advanceParts hadvance]
    rfl
  · have hlast :
        (machine.emit statement).frames.head?.bind (·.done.head?) = some statement := by
      obtain ⟨frame, frames, hframes⟩ := List.exists_cons_of_ne_nil hframes
      unfold Machine.emit
      rw [hframes]
      rfl
    rw [itemThrows_of_ne_attempt hrole, hopened, throwsOf_nil, List.append_nil, thrown?,
      htask, logged?, if_pos hthrows, hlast, Machine.throwsLeft_emit]
    rfl
  · rw [itemThrows_of_ne_attempt hrole, thrown?_eq_none hthrows, logged?_eq_none hthrows,
      throwsLeft_of_openFrame hpart haround hopen]
    rfl

/-- A step logs the first of the throws that are left, or none, and leaves the other ones. -/
theorem throwsLeft_of_step
    {machine next : Machine} {frame : Frame} {frames : List Frame}
    (hframes : machine.frames = frame :: frames)
    (h : step context machine frame frames = .ok next) :
    machine.throwsLeft context =
      (frame.pending.head?.bind (logged? context · next)).toList ++
        next.throwsLeft context := by
  rw [step, stepOr] at h
  cases hpending : frame.pending with
  | nil =>
      simp only [hpending] at h
      rw [throwsLeft_of_close hpending h, Machine.throwsLeft, hframes]
      rfl
  | cons item pending =>
      simp only [hpending] at h
      rw [List.head?_cons, Option.bind_some, Machine.throwsLeft, hframes, stackThrows,
        hpending]
      split at h
      · -- The node is replaced by what is below it, which has the same throws.
        next hthrough =>
          cases h
          rw [Bool.and_eq_true, beq_iff_eq] at hthrough
          have hattempt : item.role ≠ .attempt := by
            rw [hthrough.2]
            decide
          have hthrows : throwsItself context.language item = false := by
            rw [throwsItself, hthrough.2]
          have hopened :
              openedItems context.language item = context.language.significant item.node := by
            rw [openedItems, hthrough.2]
          rw [logged?_eq_none hthrows, Machine.throwsLeft, stackThrows, throwsOf_append,
            throwsOf_cons, itemThrows_of_ne_attempt hattempt, thrown?_eq_none hthrows, hopened]
          rfl
      · have hvisit := throwsLeft_of_visit (List.cons_ne_nil _ _) h
        rw [← hvisit, throwsOf_cons, List.append_assoc]
        rfl

/-! ## A whole run -/

theorem throwLog_of_run_eq_ok
    {machine : Machine} {statements : List Statement}
    (h : run context machine = .ok statements) :
    throwLog context machine = machine.throwsLeft context := by
  fun_induction run context machine with
  | case1 machine hframes =>
      rw [throwLog, Machine.throwsLeft]
      split
      · rw [hframes, stackThrows]
      · next hcons => simp [hframes] at hcons
  | case2 machine frame frames hframes error hstep => cases h
  | case3 machine frame frames hframes next hstep _ ih =>
      rw [throwsLeft_of_step hframes hstep, ← ih h, throwLog]
      split
      · next hnil => simp [hframes] at hnil
      · next first rest hcons =>
          rw [hframes] at hcons
          obtain ⟨rfl, rfl⟩ := List.cons.inj hcons
          split
          · next error herror => simp [hstep] at herror
          · next other hother =>
              rw [hstep] at hother
              cases hother
              rfl

/-- A parse tree that can be lowered has all its throws logged. -/
theorem rootThrowLog_of_lowerRoot_eq_ok
    {root : Node} {statements : List Statement}
    (h : lowerRoot context root = .ok statements) :
    rootThrowLog context root =
      throwsOf context none (context.language.significant root) := by
  unfold lowerRoot at h
  unfold rootThrowLog
  rw [Machine.openFrame_root] at h ⊢
  have hlog := throwLog_of_run_eq_ok h
  rw [Machine.throwsLeft, stackThrows] at hlog
  exact hlog.trans (List.append_nil _)

end HandlerLint.Lowering
