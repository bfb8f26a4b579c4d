import Splice.Emulation.Run

/-!
# Contacts with the host

A host can keep a log of what it is asked to do. The log does not change a run, and what a run adds
to it does not depend on what was logged before.
-/

namespace Splice

/-- What a run asks of a host, but for type tests, which leave the host as it is. -/
inductive Contact where
  | construct (constructor : MemberRef) (arguments : List Value)
  | call (callee : MemberRef) (receiver : Option Value) (arguments : List Value)
  deriving DecidableEq

variable {σ : Type}

/-- The host with a log of its contacts beside its state, the last one at the end. -/
def Host.logged (host : Host σ) : Host (σ × List Contact) where
  construct := fun constructor arguments (world, log) =>
    let (answer, world) := host.construct constructor arguments world
    (answer, world, log ++ [.construct constructor arguments])
  call := fun callee receiver arguments (world, log) =>
    let (answer, world) := host.call callee receiver arguments world
    (answer, world, log ++ [.call callee receiver arguments])
  isInstance := fun (world, _) => host.isInstance world

theorem Host.logged_call {host : Host σ} {callee : MemberRef} {receiver : Option Value}
    {arguments : List Value} {world ended : σ} {answer : Except Fault Completion}
    (answered : host.call callee receiver arguments world = (answer, ended))
    (log : List Contact) :
    host.logged.call callee receiver arguments (world, log) =
      (answer, ended, log ++ [.call callee receiver arguments]) := by
  simp only [logged, answered]

theorem Host.logged_construct {host : Host σ} {constructor : MemberRef} {arguments : List Value}
    {world ended : σ} {answer : Except Fault Completion}
    (answered : host.construct constructor arguments world = (answer, ended))
    (log : List Contact) :
    host.logged.construct constructor arguments (world, log) =
      (answer, ended, log ++ [.construct constructor arguments]) := by
  simp only [logged, answered]

namespace Routine

variable {routine : Routine} {frame : Frame} {id : InstrId} {instruction : Instruction}

theorem call_logged (host : Host σ) (callee : MemberRef) (world : σ) :
    ∃ calls, ∀ log, routine.call host.logged frame callee (world, log) =
      ((routine.call host frame callee world).1, (routine.call host frame callee world).2,
        log ++ calls) := by
  simp only [call]
  cases takeArguments frame callee with
  | error fault => exact ⟨[], fun log => by rw [List.append_nil]⟩
  | ok taken =>
      obtain ⟨receiver, arguments, rest⟩ := taken
      refine ⟨[.call callee receiver arguments], fun log => ?_⟩
      cases answered : host.call callee receiver arguments world with
      | mk answer after =>
          simp only [Host.logged_call answered, answered]
          cases answer <;> rfl

theorem construct_logged (host : Host σ) (constructor : MemberRef) (world : σ) :
    ∃ calls, ∀ log, routine.construct host.logged frame constructor (world, log) =
      ((routine.construct host frame constructor world).1,
        (routine.construct host frame constructor world).2, log ++ calls) := by
  simp only [construct]
  cases frame.popMany constructor.parameters.length with
  | error fault => exact ⟨[], fun log => by rw [List.append_nil]⟩
  | ok taken =>
      obtain ⟨arguments, rest⟩ := taken
      refine ⟨[.construct constructor arguments], fun log => ?_⟩
      cases answered : host.construct constructor arguments world with
      | mk answer after =>
          simp only [Host.logged_construct answered, answered]
          rcases answer with fault | completion
          · rfl
          · cases completion with
            | returned value => cases value <;> rfl
            | threw exception => rfl

/-- A step takes the same turn whether it is logged or not. -/
theorem step_logged (routine : Routine) (host : Host σ) (frame : Frame) (id : InstrId)
    (instruction : Instruction) (world : σ) :
    ∃ calls, ∀ log, routine.step host.logged frame id instruction (world, log) =
      ((routine.step host frame id instruction world).1,
        (routine.step host frame id instruction world).2, log ++ calls) := by
  simp only [step]
  split
  · exact call_logged host _ world
  · exact call_logged host _ world
  · exact construct_logged host _ world
  · exact ⟨[], fun log => by rw [List.append_nil]; rfl⟩

/-- A run goes the same way whether it is logged or not. -/
theorem run_logged (routine : Routine) (host : Host σ) (limit budget : Nat) (frame : Frame)
    (steps : Nat) (trace : Array Op) (world : σ) :
    ∃ calls, ∀ log, routine.run host.logged limit budget frame steps trace (world, log) =
      let ending := routine.run host limit budget frame steps trace world
      ⟨ending.result, ending.steps, ending.trace, (ending.world, log ++ calls)⟩ := by
  induction budget generalizing frame steps trace world with
  | zero => exact ⟨[], fun log => by simp [run]⟩
  | succ budget ih =>
      simp only [run]
      split
      next => exact ⟨[], fun log => by rw [List.append_nil]⟩
      next id _ =>
        split
        next => exact ⟨[], fun log => by rw [List.append_nil]⟩
        next instruction _ =>
          obtain ⟨here, stepLogged⟩ := routine.step_logged host frame id instruction world
          simp only [stepLogged]
          cases routine.step host frame id instruction world with
          | mk answer after =>
              rcases answer with fault | turn
              · exact ⟨here, fun log => rfl⟩
              · cases turn with
                | finish completion => exact ⟨here, fun log => rfl⟩
                | goOn next =>
                    obtain ⟨later, runLogged⟩ := ih next (steps + 1)
                      (trace.push instruction.op) after
                    refine ⟨here ++ later, fun log => ?_⟩
                    simp only [runLogged, List.append_assoc]

end Routine

namespace Emulator

/-- What a run of the method asks of the host, in order. -/
def contacts (emulator : Emulator) (host : Host σ) (method : Method) (receiver : Option Value)
    (arguments : List Value) (world : σ) : List Contact :=
  (emulator.execute host.logged method receiver arguments (world, [])).2.2.2

/-- An execution has the same result and leaves the same record and state of the host whether it is
logged or not. -/
theorem execute_logged (emulator : Emulator) (host : Host σ) (method : Method)
    (receiver : Option Value) (arguments : List Value) (world : σ) (log : List Contact) :
    emulator.execute host.logged method receiver arguments (world, log) =
      let (result, after, ended) := emulator.execute host method receiver arguments world
      (result, after, ended, log ++ emulator.contacts host method receiver arguments world) := by
  unfold contacts execute
  cases method.body with
  | none => simp
  | some body =>
      cases resolved : Routine.ofBody method.name method.isVoid body with
      | error fault => simp [resolved]
      | ok routine =>
          obtain ⟨calls, runLogged⟩ := routine.run_logged host emulator.maxSteps emulator.maxSteps
            (routine.start (receiver.toList ++ arguments)) 0 #[] world
          simp [resolved, runLogged]

end Emulator

end Splice
