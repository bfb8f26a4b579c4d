import Splice.Emulation.Frame

/-!
# Single steps

What one instruction does to a frame and to the host.
-/

namespace Splice

/-- What stays fixed while a body runs. -/
structure Routine where
  name : String
  isVoid : Bool
  body : Body
  regions : List Region

namespace Value

/-- Arithmetic wraps around at the width of its operands, which must agree. -/
def arithmetic (op : Op) (left right : Value) : Except Fault Value :=
  match left, right with
  | int32 left, int32 right =>
    .ok (int32 (match op with
      | .add => left + right
      | .sub => left - right
      | _ => left * right))
  | int64 left, int64 right =>
    .ok (int64 (match op with
      | .add => left + right
      | .sub => left - right
      | _ => left * right))
  | _, _ => .error (.undefinedFor op left right)

/-- Words of one width compare by size. All other values compare for equality only. -/
def compare (op : Op) (left right : Value) : Except Fault Value :=
  match left, right with
  | int32 left, int32 right =>
    .ok (ofBool (match op with
      | .ceq => left == right
      | .clt => left < right
      | _ => right < left))
  | int64 left, int64 right =>
    .ok (ofBool (match op with
      | .ceq => left == right
      | .clt => left < right
      | _ => right < left))
  | _, _ =>
    if op = .ceq then .ok (ofBool (left == right)) else .error (.undefinedFor op left right)

end Value

namespace Body

/-- The position of a placed instruction, as a running branch finds it. -/
def locate (body : Body) (id : InstrId) : Except Fault Nat :=
  match body.position? id with
  | some position => .ok position
  | none => .error (.notPlaced id)

end Body

namespace Routine

variable {σ : Type}

/-- Replace the two topmost values by the result of an operation on them. -/
def binary (frame : Frame) (operation : Value → Value → Except Fault Value) :
    Except Fault Turn := do
  let (right, frame) ← frame.pop
  let (left, frame) ← frame.pop
  return .goOn (frame.push (← operation left right)).advance

/-- Branch when the topmost value is as wanted. The target has to be placed only if it is taken. -/
def branchIf (routine : Routine) (frame : Frame) (wanted : Bool) (target : InstrId) :
    Except Fault Turn := do
  let (value, frame) ← frame.pop
  if value.isTrue == wanted then
    return .goOn (frame.goTo (← routine.body.locate target))
  else
    return .goOn frame.advance

/-- Go on after a call: push what it returned, or raise what it threw. -/
def afterCall (routine : Routine) (host : Host σ) (frame : Frame) (discards : Bool) (world : σ) :
    Completion → Turn
  | .returned none => .goOn frame.advance
  | .returned (some value) => .goOn (if discards then frame else frame.push value).advance
  | .threw exception => frame.raise routine.regions (host.isInstance world) exception

/-- The arguments of a call, with its receiver, and the frame without them. -/
def takeArguments (frame : Frame) (callee : MemberRef) :
    Except Fault (Option Value × List Value × Frame) := do
  let (arguments, frame) ← frame.popMany callee.parameters.length
  if callee.hasThis then
    let (receiver, frame) ← frame.pop
    return (some receiver, arguments, frame)
  else
    return (none, arguments, frame)

/-- Call a member. The result of a void callee is discarded. -/
def call (routine : Routine) (host : Host σ) (frame : Frame) (callee : MemberRef) (world : σ) :
    Except Fault Turn × σ :=
  match takeArguments frame callee with
  | .error fault => (.error fault, world)
  | .ok (receiver, arguments, frame) =>
    match host.call callee receiver arguments world with
    | (.error fault, world) => (.error fault, world)
    | (.ok completion, world) =>
      (.ok (routine.afterCall host frame callee.returns.isVoid world completion), world)

/-- Construct an object. -/
def construct (routine : Routine) (host : Host σ) (frame : Frame) (constructor : MemberRef)
    (world : σ) : Except Fault Turn × σ :=
  match frame.popMany constructor.parameters.length with
  | .error fault => (.error fault, world)
  | .ok (arguments, frame) =>
    match host.construct constructor arguments world with
    | (.error fault, world) => (.error fault, world)
    | (.ok (.returned none), world) => (.error (.noObject constructor), world)
    | (.ok completion, world) =>
      (.ok (routine.afterCall host frame false world completion), world)

/-- Execute an instruction that the host takes no part in but by its type tests. -/
def compute (routine : Routine) (isInstance : Value → TypeExpr → Bool) (frame : Frame)
    (id : InstrId) (instruction : Instruction) : Except Fault Turn :=
  match instruction.op, instruction.operand with
  | .nop, _ => .ok (.goOn frame.advance)
  | .ldarg, .argument index => do
    return .goOn (frame.push (← frame.argument index)).advance
  | .ldloc, .slot index => do
    return .goOn (frame.push (← frame.slotAt index)).advance
  | .stloc, .slot index => do
    let (value, frame) ← frame.pop
    return .goOn (← frame.store index value).advance
  | .ldnull, _ => .ok (.goOn (frame.push .null).advance)
  | .ldcI4, .int32 value => .ok (.goOn (frame.push (.int32 value)).advance)
  | .ldstr, .string value => .ok (.goOn (frame.push (.string value)).advance)
  | .dup, _ => do
    let (value, frame) ← frame.pop
    return .goOn ((frame.push value).push value).advance
  | .pop, _ => do
    let (_, frame) ← frame.pop
    return .goOn frame.advance
  | .add, _ => binary frame (Value.arithmetic .add)
  | .sub, _ => binary frame (Value.arithmetic .sub)
  | .mul, _ => binary frame (Value.arithmetic .mul)
  | .ceq, _ => binary frame (Value.compare .ceq)
  | .clt, _ => binary frame (Value.compare .clt)
  | .cgt, _ => binary frame (Value.compare .cgt)
  | .br, .target target => do return .goOn (frame.goTo (← routine.body.locate target))
  | .brtrue, .target target => routine.branchIf frame true target
  | .brfalse, .target target => routine.branchIf frame false target
  | .ret, _ =>
    if routine.isVoid then .ok (.finish (.returned none))
    else do
      let (value, _) ← frame.pop
      return .finish (.returned (some value))
  | .throw, _ => do
    match ← frame.pop with
    | (.null, _) => .error (.throwsNull id)
    | (exception, frame) => return frame.raise routine.regions isInstance exception
  | .rethrow, _ =>
    match frame.currentException? routine.regions with
    | some exception => .ok (frame.raise routine.regions isInstance exception)
    | none => .error (.rethrowsOutside id)
  | .leave, .target target => do
    return .goOn (frame.leave routine.regions (← routine.body.locate target))
  | .endfinally, _ => frame.endFinally routine.regions isInstance
  | op, operand => .error (.badOperand id op operand)

/-- Execute one instruction. -/
def step (routine : Routine) (host : Host σ) (frame : Frame) (id : InstrId)
    (instruction : Instruction) (world : σ) : Except Fault Turn × σ :=
  match instruction.op, instruction.operand with
  | .call, .member callee => routine.call host frame callee world
  | .callvirt, .member callee => routine.call host frame callee world
  | .newobj, .member constructor => routine.construct host frame constructor world
  | _, _ => (routine.compute (host.isInstance world) frame id instruction, world)

end Routine

end Splice
