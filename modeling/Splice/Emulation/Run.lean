import Splice.Emulation.Step
import Splice.Module

/-!
# Runs

A run executes the body of a method step by step until it completes, faults or has used up its
budget. The emulator remembers how many steps the last run took and which operations it executed.
-/

namespace Splice

variable {σ : Type}

/-- How a run ended, and what it did on the way. -/
structure Ending (σ : Type) where
  result : Except Fault Completion
  steps : Nat
  trace : Array Op
  world : σ

namespace Routine

/-- Resolve the ranges of a clause. -/
def region (body : Body) (clause : Clause) : Except Fault Region := do
  let tryStart ← body.locate clause.tryStart
  let tryEnd ← body.locate clause.tryEnd
  let handlerStart ← body.locate clause.handlerStart
  let handlerEnd ← body.locate clause.handlerEnd
  return ⟨clause, ⟨tryStart, tryEnd⟩, ⟨handlerStart, handlerEnd⟩⟩

def ofBody (name : String) (isVoid : Bool) (body : Body) : Except Fault Routine := do
  return ⟨name, isVoid, body, ← body.clauses.mapM (region body)⟩

/-- The frame in which a run starts. -/
def start (routine : Routine) (arguments : List Value) : Frame where
  arguments := arguments.toArray
  slots := routine.body.slots.map Value.defaultFor
  stack := []
  pending := []
  caught := routine.regions.map fun _ => none
  position := 0

/-- Run for at most `budget` more steps. A step counts once it is begun, an operation is traced once
it is fetched. -/
def run (routine : Routine) (host : Host σ) (limit : Nat) :
    (budget : Nat) → (frame : Frame) → (steps : Nat) → (trace : Array Op) → (world : σ) → Ending σ
  | 0, _, steps, trace, world => ⟨.error (.stepLimit limit), steps, trace, world⟩
  | budget + 1, frame, steps, trace, world =>
    match routine.body.order[frame.position]? with
    | none => ⟨.error (.ranPast routine.name), steps + 1, trace, world⟩
    | some id =>
      match routine.body.get? id with
      | none => ⟨.error (.missing id), steps + 1, trace, world⟩
      | some instruction =>
        let trace := trace.push instruction.op
        match routine.step host frame id instruction world with
        | (.error fault, world) => ⟨.error fault, steps + 1, trace, world⟩
        | (.ok (.finish completion), world) => ⟨.ok completion, steps + 1, trace, world⟩
        | (.ok (.goOn frame), world) => run routine host limit budget frame (steps + 1) trace world

end Routine

/-- An emulator with its step budget and the record of its last run. -/
structure Emulator where
  maxSteps : Nat := 10000
  steps : Nat := 0
  trace : Array Op := #[]

namespace Emulator

/-- Run a method. The receiver, if any, is its first argument. A method without a body leaves the
record of the last run as it is. -/
def execute (emulator : Emulator) (host : Host σ) (method : Method) (receiver : Option Value)
    (arguments : List Value) (world : σ) : Except Fault Completion × Emulator × σ :=
  match method.body with
  | none => (.error (.noBody method.name), emulator, world)
  | some body =>
    match Routine.ofBody method.name method.isVoid body with
    | .error fault => (.error fault, { emulator with steps := 0, trace := #[] }, world)
    | .ok routine =>
      let frame := routine.start (receiver.toList ++ arguments)
      let ending := routine.run host emulator.maxSteps emulator.maxSteps frame 0 #[] world
      (ending.result, { emulator with steps := ending.steps, trace := ending.trace }, ending.world)

end Emulator

end Splice
