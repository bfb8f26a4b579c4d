import Splice.Proofs.Emulation.Contact
import Splice.Proofs.Emulation.Enclosure
import Splice.Proofs.Emulation.Execution

/-!
# Completion

Runs that complete are counted by their steps. Such a run can be put together from the effects of
single instructions, and the run of an enclosed routine can be continued where an exception leaves
it.
-/

namespace Splice

namespace Routine

variable {σ : Type} {routine : Routine} {host : Host σ} {first middle frame : Frame}
variable {world between ended : σ} {ops : List Op} {steps : Nat} {completion : Completion}

/-- The routine completes from a frame after so many steps. -/
inductive Completes (routine : Routine) (host : Host σ) :
    Frame → σ → (steps : Nat) → Completion → σ → Prop where
  | finish {first : Frame} {world ended : σ} {id : InstrId} {instruction : Instruction}
      {completion : Completion} :
      routine.fetch? first.position = some (id, instruction) →
      routine.step host first id instruction world = (.ok (.finish completion), ended) →
      Completes routine host first world 1 completion ended
  | step {first middle : Frame} {world between ended : σ} {id : InstrId}
      {instruction : Instruction} {completion : Completion} {steps : Nat} :
      routine.fetch? first.position = some (id, instruction) →
      routine.step host first id instruction world = (.ok (.goOn middle), between) →
      Completes routine host middle between steps completion ended →
      Completes routine host first world (steps + 1) completion ended

theorem Path.completes (path : Path routine host first world ops middle between)
    (rest : routine.Completes host middle between steps completion ended) :
    routine.Completes host first world (steps + ops.length) completion ended := by
  induction path with
  | refl => exact rest
  | step fetched stepped _ ih => exact .step fetched stepped (ih rest)

/-- A run that completes is a path to the step that completes it. -/
theorem Completes.exists_path
    (completes : routine.Completes host first world steps completion ended) :
    ∃ ops last between id instruction, Path routine host first world ops last between ∧
      routine.fetch? last.position = some (id, instruction) ∧
      routine.step host last id instruction between = (.ok (.finish completion), ended) ∧
      steps = ops.length + 1 := by
  induction completes with
  | finish fetched stepped => exact ⟨[], _, _, _, _, .refl _ _, fetched, stepped, rfl⟩
  | step fetched stepped _ ih =>
      obtain ⟨ops, last, between, id, instruction, path, fetchedLast, finished, rfl⟩ := ih
      exact ⟨_ :: ops, last, between, id, instruction, .step fetched stepped path, fetchedLast,
        finished, rfl⟩

/-! ## Effects of single instructions -/

section Effects

variable {id : InstrId} {value : Value} {below : List Value} {slot index : Nat}

theorem step_storeSlot (stack : frame.stack = value :: below) (room : slot < frame.slots.size) :
    routine.step host frame id (.storeSlot slot) world =
      (.ok (.goOn { frame with
        slots := frame.slots.setIfInBounds slot value
        stack := below
        position := frame.position + 1 }), world) := by
  simp [step, compute, Instruction.storeSlot, Frame.pop, stack, Frame.store, room, bind,
    Except.bind, pure, Except.pure, Frame.advance, Frame.goTo]

theorem step_loadSlot (stored : frame.slots[slot]? = some value) :
    routine.step host frame id (.loadSlot slot) world =
      (.ok (.goOn { frame with
        stack := value :: frame.stack
        position := frame.position + 1 }), world) := by
  simp [step, compute, Instruction.loadSlot, Frame.slotAt, stored, bind, Except.bind, pure,
    Except.pure, Frame.push, Frame.advance, Frame.goTo]

theorem step_loadArgument (passed : frame.arguments[index]? = some value) :
    routine.step host frame id (.loadArgument index) world =
      (.ok (.goOn { frame with
        stack := value :: frame.stack
        position := frame.position + 1 }), world) := by
  simp [step, compute, Instruction.loadArgument, Frame.argument, passed, bind, Except.bind, pure,
    Except.pure, Frame.push, Frame.advance, Frame.goTo]

theorem step_ldnull :
    routine.step host frame id ⟨.ldnull, .none⟩ world =
      (.ok (.goOn { frame with
        stack := .null :: frame.stack
        position := frame.position + 1 }), world) := rfl

theorem step_leaveTo {target : InstrId} {position : Nat}
    (located : routine.body.position? target = some position) :
    routine.step host frame id (.leaveTo target) world =
      (.ok (.goOn (frame.leave routine.regions position)), world) := by
  simp [step, compute, Instruction.leaveTo, Body.locate_eq_ok_iff.mpr located, bind, Except.bind,
    pure, Except.pure]

theorem step_rethrow {exception : Value} {operand : Operand}
    (current : frame.currentException? routine.regions = some exception) :
    routine.step host frame id ⟨.rethrow, operand⟩ world =
      (.ok (frame.raise routine.regions (host.isInstance world) exception), world) := by
  simp [step, compute, current]

/-- At the end of a finally handler a leave that has no other handler to run comes to its target. -/
theorem step_endfinally_leave {target : Nat} {pending : List Resumption}
    (pends : frame.pending = .leave [] target :: pending) :
    routine.step host frame id ⟨.endfinally, .none⟩ world =
      (.ok (.goOn { frame with stack := [], pending := pending, position := target }), world) := by
  simp [step, compute, Frame.endFinally, pends, Frame.runHandlers]

/-- At the end of a finally handler an exception that has no other handler to meet ends the run. -/
theorem step_endfinally_unwind {exception : Value} {origin : Nat} {pending : List Resumption}
    (pends : frame.pending = .unwind exception origin routine.regions.length :: pending) :
    routine.step host frame id ⟨.endfinally, .none⟩ world =
      (.ok (.finish (.threw exception)), world) := by
  have none : routine.regions.zipIdx.drop routine.regions.length = [] :=
    List.drop_eq_nil_of_le (Nat.le_of_eq List.length_zipIdx)
  simp [step, compute, Frame.endFinally, pends, Frame.unwind, none]

theorem step_ret_void (isVoid : routine.isVoid = true) :
    routine.step host frame id ⟨.ret, .none⟩ world = (.ok (.finish (.returned none)), world) := by
  simp [step, compute, isVoid]

theorem step_ret_value (isVoid : routine.isVoid = false) (stack : frame.stack = value :: below) :
    routine.step host frame id ⟨.ret, .none⟩ world =
      (.ok (.finish (.returned (some value))), world) := by
  simp [step, compute, isVoid, Frame.pop, stack, bind, Except.bind, pure, Except.pure]

theorem popMany_reverse {arguments : List Value}
    (stack : frame.stack = arguments.reverse ++ below) :
    frame.popMany arguments.length = .ok (arguments, { frame with stack := below }) := by
  simp [Frame.popMany, stack]

/-- A constructor takes its arguments from the top of the stack. -/
theorem step_construct {constructor : MemberRef} {arguments : List Value} {turn : Turn}
    (stack : frame.stack = arguments.reverse ++ below)
    (parameters : constructor.parameters.length = arguments.length)
    (answered : host.construct constructor arguments world = (.ok completion, ended))
    (notNothing : completion ≠ .returned none)
    (goes : routine.afterCall host { frame with stack := below } false ended completion = turn) :
    routine.step host frame id (.invoke .newobj constructor) world = (.ok turn, ended) := by
  have taken : frame.popMany constructor.parameters.length =
      .ok (arguments, { frame with stack := below }) := by
    rw [parameters, popMany_reverse stack]
  exact construct_eq_ok_iff.mpr ⟨_, _, _, taken, answered, notNothing, goes⟩

/-- A static call without parameters takes nothing from the stack. -/
theorem step_call_static {callee : MemberRef} {turn : Turn} (hasThis : callee.hasThis = false)
    (parameters : callee.parameters = [])
    (answered : host.call callee none [] world = (.ok completion, ended))
    (goes : routine.afterCall host frame callee.returns.isVoid ended completion = turn) :
    routine.step host frame id (.invoke .call callee) world = (.ok turn, ended) := by
  have taken : takeArguments frame callee = .ok (none, [], frame) := by
    simp [takeArguments, parameters, hasThis, Frame.popMany, bind, Except.bind, pure, Except.pure]
  exact call_eq_ok_iff.mpr ⟨_, _, _, _, taken, answered, goes⟩

/-- A call on an object takes the arguments and then the object. -/
theorem step_call_instance {callee : MemberRef} {arguments : List Value} {turn : Turn}
    (hasThis : callee.hasThis = true)
    (stack : frame.stack = arguments.reverse ++ value :: below)
    (parameters : callee.parameters.length = arguments.length)
    (answered : host.call callee (some value) arguments world = (.ok completion, ended))
    (goes : routine.afterCall host { frame with stack := below } callee.returns.isVoid ended
      completion = turn) :
    routine.step host frame id (.invoke .callvirt callee) world = (.ok turn, ended) := by
  have taken : takeArguments frame callee =
      .ok (some value, arguments, { frame with stack := below }) := by
    rw [takeArguments, parameters, popMany_reverse stack, ok_bind]
    simp [hasThis, Frame.pop, bind, Except.bind, pure, Except.pure]
  exact call_eq_ok_iff.mpr ⟨_, _, _, _, taken, answered, goes⟩

/-- After a void call that returns, a run goes on with the next instruction. -/
theorem afterCall_of_isVoid {discards : Bool} (isVoid : discards = true)
    (returned : Option Value) :
    routine.afterCall host frame discards world (.returned returned) =
      .goOn { frame with position := frame.position + 1 } := by
  subst isVoid
  cases returned <;> rfl

/-- After a call that returns a value, a run goes on above the value. -/
theorem afterCall_of_valued {discards : Bool} (valued : discards = false) :
    routine.afterCall host frame discards world (.returned (some value)) =
      .goOn { frame with
        stack := value :: frame.stack
        position := frame.position + 1 } := by
  subst valued
  rfl

end Effects

/-! ## Where nothing is protected -/

/-- The search for a handler finds none. -/
theorem find?_intercepts_eq_none {regions : List Region} {position next : Nat}
    (unguarded : ∀ region ∈ regions, region.guarded.contains position = false)
    (accepts : TypeExpr → Bool) :
    ((regions.zipIdx.drop next).find? fun (region, _) => region.intercepts accepts position) =
      none := by
  rw [List.find?_eq_none]
  intro entry member
  have located := List.mem_zipIdx_iff_getElem?.mp (List.mem_of_mem_drop member)
  simp [Region.intercepts, unguarded entry.1 (List.mem_of_getElem? located)]

/-- An exception that is raised in no protected range ends the run. -/
theorem raise_of_unguarded {regions : List Region} {isInstance : Value → TypeExpr → Bool}
    {exception : Value}
    (unguarded : ∀ region ∈ regions, region.guarded.contains frame.position = false) :
    frame.raise regions isInstance exception = .finish (.threw exception) := by
  rw [Frame.raise, Frame.unwind, find?_intercepts_eq_none unguarded]

/-- A leave out of no protected range goes to its target at once. -/
theorem leave_of_unguarded {regions : List Region} {target : Nat}
    (unguarded : ∀ region ∈ regions, region.guarded.contains frame.position = false) :
    frame.leave regions target = { frame with stack := [], position := target } := by
  have none : regions.filter (·.isLeft frame.position target) = [] := by
    rw [List.filter_eq_nil_iff]
    intro region member
    simp [Region.isLeft, unguarded region member]
  rw [Frame.leave, none, Frame.runHandlers]

/-! ## Enclosed runs -/

variable {inner outer : Routine} {place : Nat → Nat} {extra : Region}
variable {spare arguments : Array Value}

/-- When the inner routine throws, a run of the outer one comes to the additional region and goes on
from there. -/
theorem completes_of_threw (encloses : outer.Encloses place extra inner)
    (fits : first.Fits inner arguments) {exception : Value}
    (thrown : inner.Completes host first world steps (.threw exception) ended) :
    ∃ last : Frame, ∃ origin, last.Fits inner arguments ∧ origin < inner.body.length ∧
      ∀ {middle more final} {completion : Completion},
        (last.enclose place spare).unwind outer.regions (host.isInstance ended) exception
          (place origin) inner.regions.length = .goOn middle →
        outer.Completes host middle ended more completion final →
        outer.Completes host (first.enclose place spare) world (more + steps) completion final := by
  obtain ⟨ops, throwing, between, id, instruction, path, fetched, stepped, rfl⟩ :=
    thrown.exists_path
  obtain ⟨pathOuter, fitsThrowing⟩ := path_enclose encloses fits path
  obtain ⟨fetchedOuter, last, origin, fitsLast, inside, steppedOuter⟩ :=
    step_threw encloses fitsThrowing fetched stepped
  refine ⟨last, origin, fitsLast, inside, fun entered rest => ?_⟩
  rw [entered] at steppedOuter
  have completes := pathOuter.completes (.step fetchedOuter steppedOuter rest)
  rw [Nat.add_right_comm] at completes
  exact completes

end Routine

/-! ## Executions -/

namespace Emulator

variable {σ : Type} {host : Host σ} {emulator : Emulator} {method : Method} {body : Body}
variable {receiver : Option Value} {arguments : List Value} {regions : List Region}
variable {world ended : σ} {completion : Completion} {steps : Nat} {calls : List Contact}

/-- An execution completes: in which way, after how many steps, after which contacts with the host
and in which state it leaves the host. -/
structure Completes (emulator : Emulator) (host : Host σ) (method : Method)
    (receiver : Option Value) (arguments : List Value) (world : σ) (completion : Completion)
    (steps : Nat) (calls : List Contact) (ended : σ) : Prop where
  result : (emulator.execute host method receiver arguments world).1 = .ok completion
  steps : (emulator.execute host method receiver arguments world).2.1.steps = steps
  ended : (emulator.execute host method receiver arguments world).2.2 = ended
  contacts : emulator.contacts host method receiver arguments world = calls

theorem Completes.hasRegions (bodied : method.body = some body)
    (completes : emulator.Completes host method receiver arguments world completion steps calls
      ended) : ∃ regions, body.HasRegions regions := by
  have ran : ∀ id, (.ok completion : Except Fault Completion) ≠ .error (.notPlaced id) := nofun
  exact hasRegions_of_execute bodied (Prod.ext completes.result rfl) ran

/-- An execution completes when its routine does so within the budget, whatever is logged before. -/
theorem completes_iff (bodied : method.body = some body) (has : body.HasRegions regions)
    (log : List Contact) :
    emulator.Completes host method receiver arguments world completion steps calls ended ↔
      steps ≤ emulator.maxSteps ∧
        (method.routineOf body regions).Completes host.logged
          (method.startOf body regions receiver arguments) (world, log) steps completion
          (ended, log ++ calls) := by
  have logged := emulator.execute_logged host method receiver arguments world log
  constructor
  · rintro ⟨result, rfl, rfl, rfl⟩
    obtain ⟨ops, last, between, left, final, count, path, halts, within, record⟩ :=
      exists_path_of_execute bodied has (logged.trans (Prod.ext result rfl))
    cases halts with
    | finished fetched stepped =>
        have completes := path.completes (.finish fetched stepped)
        rw [record]
        constructor
        · exact within ▸ Nat.add_le_add_left (Nat.le_add_left 1 _) ops.length
        · rw [Nat.add_comm] at completes
          exact completes
  · rintro ⟨within, completes⟩
    obtain ⟨ops, last, between, id, instruction, path, fetched, stepped, rfl⟩ :=
      completes.exists_path
    obtain ⟨spared, within⟩ := Nat.exists_eq_add_of_le within
    have budget : ops.length + (spared + 1) = emulator.maxSteps := by omega
    have executed := execute_of_path bodied has path (.finished fetched stepped) budget
    rw [logged, Prod.mk.injEq, Prod.mk.injEq, Prod.mk.injEq, List.append_cancel_left_eq] at executed
    obtain ⟨result, record, ended, calls⟩ := executed
    exact ⟨result, congrArg Emulator.steps record, ended, calls⟩

end Emulator

end Splice
