import Splice.Proofs.Code.WellFormed
import Splice.Proofs.Emulation.Path
import Splice.Proofs.Emulation.Turn

/-!
# Conduct

What an instruction does about the handlers around it can be told from the frame and from the
answer of a called member: it stays clear of them, raises an exception, leaves protected ranges or
ends a handler. In the last three cases a transfer of control goes on.
-/

namespace Splice

variable {σ : Type} {routine : Routine} {host : Host σ} {regions : List Region}
variable {isInstance : Value → TypeExpr → Bool} {frame next before : Frame}
variable {world after : σ} {id : InstrId} {instruction : Instruction} {transfer : Resumption}

namespace Frame

/-- Go on with a transfer. -/
def carryOn (frame : Frame) (regions : List Region) (isInstance : Value → TypeExpr → Bool) :
    Resumption → Turn
  | .leave rest target => .goOn (frame.runHandlers target rest)
  | .unwind exception origin next => frame.unwind regions isInstance exception origin next

end Frame

/-- What an instruction does about the handlers around it. -/
inductive Conduct where
  | stay
  | raise (exception : Value)
  | leave (target : Nat)
  | resume (transfer : Resumption)
  deriving DecidableEq

namespace Conduct

/-- An exception that a called member throws is raised at the call. -/
def ofAnswer : Except Fault Completion → Conduct
  | .ok (.threw exception) => .raise exception
  | _ => .stay

/-- The transfer of control that goes on from the position. -/
def transfer? (regions : List Region) (position : Nat) : Conduct → Option Resumption
  | .stay => none
  | .raise exception => some (.unwind exception position 0)
  | .leave target => some (.leave (regions.filter (·.isLeft position target)) target)
  | .resume transfer => some transfer

/-- What waits no longer. -/
def resumed : Conduct → List Resumption
  | .resume transfer => [transfer]
  | _ => []

/-- The conduct leads from one frame to another. -/
inductive Leads (regions : List Region) (isInstance : Value → TypeExpr → Bool) (frame : Frame) :
    Conduct → Frame → Prop where
  | stay {next : Frame} : next.pending = frame.pending → next.caught = frame.caught →
      Leads regions isInstance frame .stay next
  | transfer {conduct : Conduct} {before next : Frame} {transfer : Resumption} :
      conduct.transfer? regions frame.position = some transfer →
      frame.pending = conduct.resumed ++ before.pending → before.caught = frame.caught →
      before.carryOn regions isInstance transfer = .goOn next →
      Leads regions isInstance frame conduct next

end Conduct

namespace Routine

/-- What an instruction does about the handlers. It depends on the answer of a called member. -/
def conduct (routine : Routine) (host : Host σ) (frame : Frame) (instruction : Instruction)
    (world : σ) : Conduct :=
  match instruction.op, instruction.operand with
  | .call, .member callee | .callvirt, .member callee =>
    match takeArguments frame callee with
    | .ok (receiver, arguments, _) => .ofAnswer (host.call callee receiver arguments world).1
    | .error _ => .stay
  | .newobj, .member constructor =>
    match frame.popMany constructor.parameters.length with
    | .ok (arguments, _) => .ofAnswer (host.construct constructor arguments world).1
    | .error _ => .stay
  | .throw, _ => frame.stack.head?.elim .stay .raise
  | .rethrow, _ => (frame.currentException? routine.regions).elim .stay .raise
  | .leave, .target target => (routine.body.position? target).elim .stay .leave
  | .endfinally, _ => frame.pending.head?.elim .stay .resume
  | _, _ => .stay

end Routine

/-! ## What a step does -/

theorem endFinally_of_pending {frame : Frame} {regions : List Region}
    {isInstance : Value → TypeExpr → Bool} {transfer : Resumption} {pending : List Resumption}
    (waits : frame.pending = transfer :: pending) :
    frame.endFinally regions isInstance =
      .ok ({ frame with pending }.carryOn regions isInstance transfer) := by
  rw [Frame.endFinally, waits]
  cases transfer <;> rfl

/-- If the turn goes on, then as the conduct says. -/
def Conduct.Guides (conduct : Conduct) (regions : List Region)
    (isInstance : Value → TypeExpr → Bool) (frame : Frame) (result : Except Fault Turn) : Prop :=
  ∀ next, result = .ok (.goOn next) → conduct.Leads regions isInstance frame next

/-- The frames may differ in the values that they hold. -/
structure Frame.SharesControl (next frame : Frame) : Prop where
  pending : next.pending = frame.pending
  caught : next.caught = frame.caught
  position : next.position = frame.position

theorem Frame.SharesControl.trans (shares : next.SharesControl before)
    (sharesBefore : before.SharesControl frame) : next.SharesControl frame where
  pending := shares.pending.trans sharesBefore.pending
  caught := shares.caught.trans sharesBefore.caught
  position := shares.position.trans sharesBefore.position

theorem sharesControl_of_pop {value : Value} (popped : frame.pop = .ok (value, next)) :
    next.SharesControl frame ∧ frame.stack = value :: next.stack := by
  simp only [Frame.pop] at popped
  split at popped
  next stack =>
    cases popped
    exact ⟨⟨rfl, rfl, rfl⟩, stack⟩
  · cases popped

theorem sharesControl_of_popMany {count : Nat} {values : List Value}
    (popped : frame.popMany count = .ok (values, next)) : next.SharesControl frame := by
  simp only [Frame.popMany] at popped
  split at popped
  · cases popped
  · cases popped
    exact ⟨rfl, rfl, rfl⟩

theorem sharesControl_of_store {index : Nat} {value : Value}
    (stored : frame.store index value = .ok next) : next.SharesControl frame := by
  simp only [Frame.store] at stored
  split at stored <;> cases stored
  exact ⟨rfl, rfl, rfl⟩

theorem sharesControl_of_takeArguments {callee : MemberRef} {receiver : Option Value}
    {arguments : List Value}
    (taken : Routine.takeArguments frame callee = .ok (receiver, arguments, next)) :
    next.SharesControl frame := by
  simp only [Routine.takeArguments, bind_eq_ok_iff] at taken
  obtain ⟨⟨values, rest⟩, popped, taken⟩ := taken
  have shares := sharesControl_of_popMany popped
  split at taken
  · simp only [bind_eq_ok_iff, pure_eq_ok_iff] at taken
    obtain ⟨⟨value, last⟩, poppedThen, taken⟩ := taken
    cases taken
    exact (sharesControl_of_pop poppedThen).1.trans shares
  · cases taken
    exact shares

namespace Conduct.Guides

variable {conduct : Conduct} {rest : Frame}

theorem error (fault : Fault) : conduct.Guides regions isInstance frame (.error fault) := nofun

theorem finish (completion : Completion) :
    conduct.Guides regions isInstance frame (.ok (.finish completion)) := nofun

theorem bind {α : Type} {part : Except Fault α} {rest : α → Except Fault Turn}
    (guides : ∀ value, part = .ok value → conduct.Guides regions isInstance frame (rest value)) :
    conduct.Guides regions isInstance frame (part >>= rest) := by
  cases part with
  | ok value => exact guides value rfl
  | error fault => exact nofun

theorem stay (samePending : next.pending = frame.pending)
    (sameCaught : next.caught = frame.caught) :
    Conduct.stay.Guides regions isInstance frame (.ok (.goOn next)) := by
  rintro _ ⟨⟩
  exact .stay samePending sameCaught

theorem raise (shares : rest.SharesControl frame) (exception : Value) :
    (Conduct.raise exception).Guides regions isInstance frame
      (.ok (rest.raise regions isInstance exception)) := by
  intro next raised
  have starts : (Conduct.raise exception).transfer? regions frame.position =
      some (.unwind exception rest.position 0) := by
    rw [shares.position]
    rfl
  exact .transfer starts shares.pending.symm shares.caught (Except.ok.inj raised)

theorem binary (operation : Value → Value → Except Fault Value) :
    Conduct.stay.Guides regions isInstance frame (Routine.binary frame operation) := by
  refine .bind fun (right, first) poppedFirst => .bind fun (left, second) poppedSecond => ?_
  have shares := (sharesControl_of_pop poppedSecond).1.trans (sharesControl_of_pop poppedFirst).1
  exact .bind fun value _ => .stay shares.pending shares.caught

theorem branchIf (wanted : Bool) (target : InstrId) :
    Conduct.stay.Guides regions isInstance frame (routine.branchIf frame wanted target) := by
  refine .bind fun (value, rest) popped => ?_
  have shares := (sharesControl_of_pop popped).1
  dsimp only
  split
  · exact .bind fun position _ => .stay shares.pending shares.caught
  · exact .stay shares.pending shares.caught

theorem endFinally :
    (frame.pending.head?.elim .stay Conduct.resume).Guides regions isInstance frame
      (frame.endFinally regions isInstance) := by
  intro next ended
  cases waits : frame.pending with
  | nil => simp [Frame.endFinally, waits] at ended
  | cons transfer pending =>
      rw [endFinally_of_pending waits] at ended
      let before : Frame := { frame with pending }
      have splits : frame.pending = [transfer] ++ before.pending := waits
      exact .transfer rfl splits rfl (Except.ok.inj ended)

theorem afterCall (shares : rest.SharesControl frame) (discards : Bool)
    (completion : Completion) :
    (Conduct.ofAnswer (.ok completion)).Guides routine.regions (host.isInstance after) frame
      (.ok (routine.afterCall host rest discards after completion)) := by
  cases completion with
  | threw exception => exact .raise shares exception
  | returned value =>
      cases value with
      | none => exact .stay shares.pending shares.caught
      | some value => cases discards <;> exact .stay shares.pending shares.caught

end Conduct.Guides

namespace Routine

theorem guides_compute :
    (routine.conduct host frame instruction world).Guides routine.regions isInstance frame
      (routine.compute isInstance frame id instruction) := by
  obtain ⟨op, operand⟩ := instruction
  cases op with
  | nop | ldnull => exact .stay rfl rfl
  | call | callvirt | newobj => exact .error _
  | ldarg =>
      cases operand with
      | argument index => exact .bind fun _ _ => .stay rfl rfl
      | _ => exact .error _
  | ldloc =>
      cases operand with
      | slot index => exact .bind fun _ _ => .stay rfl rfl
      | _ => exact .error _
  | stloc =>
      cases operand with
      | slot index =>
          refine .bind fun taken popped => .bind fun stored storing => ?_
          have shares := (sharesControl_of_store storing).trans (sharesControl_of_pop popped).1
          exact .stay shares.pending shares.caught
      | _ => exact .error _
  | ldcI4 =>
      cases operand with
      | int32 value => exact .stay rfl rfl
      | _ => exact .error _
  | ldstr =>
      cases operand with
      | string value => exact .stay rfl rfl
      | _ => exact .error _
  | dup | pop =>
      refine .bind fun taken popped => ?_
      have shares := (sharesControl_of_pop popped).1
      exact .stay shares.pending shares.caught
  | add | sub | mul | ceq | clt | cgt => exact .binary _
  | br =>
      cases operand with
      | target target => exact .bind fun _ _ => .stay rfl rfl
      | _ => exact .error _
  | brtrue | brfalse =>
      cases operand with
      | target target => exact .branchIf _ target
      | _ => exact .error _
  | ret =>
      simp only [compute]
      split
      · exact .finish _
      · exact .bind fun _ _ => .finish _
  | throw =>
      refine .bind fun taken popped => ?_
      obtain ⟨value, rest⟩ := taken
      obtain ⟨shares, stack⟩ := sharesControl_of_pop popped
      simp only [conduct, stack]
      cases value with
      | null => exact .error _
      | _ => exact .raise shares _
  | rethrow =>
      simp only [compute, conduct]
      cases frame.currentException? routine.regions with
      | none => exact .error _
      | some exception => exact .raise ⟨rfl, rfl, rfl⟩ exception
  | leave =>
      cases operand with
      | target target =>
          refine .bind fun position located next left => ?_
          simp only [conduct, Body.locate_eq_ok_iff.mp located]
          exact .transfer rfl rfl rfl (Except.ok.inj left)
      | _ => exact .error _
  | endfinally => exact .endFinally

theorem guides_call {callee : MemberRef}
    (calls : routine.conduct host frame instruction world =
      match takeArguments frame callee with
      | .ok (receiver, arguments, _) => .ofAnswer (host.call callee receiver arguments world).1
      | .error _ => .stay) :
    (routine.conduct host frame instruction world).Guides routine.regions
      (host.isInstance (routine.call host frame callee world).2) frame
      (routine.call host frame callee world).1 := by
  intro next called
  obtain ⟨receiver, arguments, rest, completion, taken, answered, goes⟩ :=
    call_eq_ok_iff.mp (Prod.ext called rfl)
  have shares := sharesControl_of_takeArguments taken
  simp only [calls, taken, answered]
  exact Conduct.Guides.afterCall shares _ completion next (congrArg _ goes)

theorem guides_construct {constructor : MemberRef}
    (constructs : routine.conduct host frame instruction world =
      match frame.popMany constructor.parameters.length with
      | .ok (arguments, _) => .ofAnswer (host.construct constructor arguments world).1
      | .error _ => .stay) :
    (routine.conduct host frame instruction world).Guides routine.regions
      (host.isInstance (routine.construct host frame constructor world).2) frame
      (routine.construct host frame constructor world).1 := by
  intro next constructed
  obtain ⟨arguments, rest, completion, taken, answered, _, goes⟩ :=
    construct_eq_ok_iff.mp (Prod.ext constructed rfl)
  have shares := sharesControl_of_popMany taken
  simp only [constructs, taken, answered]
  exact Conduct.Guides.afterCall shares false completion next (congrArg _ goes)

/-- Every step that goes on does what its conduct says. -/
theorem leads_of_step
    (stepped : routine.step host frame id instruction world = (.ok (.goOn next), after)) :
    (routine.conduct host frame instruction world).Leads routine.regions (host.isInstance after)
      frame next := by
  have guides : (routine.conduct host frame instruction world).Guides routine.regions
      (host.isInstance (routine.step host frame id instruction world).2) frame
      (routine.step host frame id instruction world).1 := by
    obtain ⟨op, operand⟩ := instruction
    simp only [step]
    split
    · exact guides_call rfl
    · exact guides_call rfl
    · exact guides_construct rfl
    · exact guides_compute
  rw [stepped] at guides
  exact guides next rfl

/-- Only an `endfinally` goes on with what waits. -/
theorem op_of_conduct_resume
    (resumes : routine.conduct host frame instruction world = .resume transfer) :
    instruction.op = .endfinally := by
  have answers (answer : Except Fault Completion) : Conduct.ofAnswer answer ≠ .resume transfer := by
    unfold Conduct.ofAnswer
    split <;> exact nofun
  unfold conduct at resumes
  split at resumes
  case h_1 | h_2 | h_3 =>
    split at resumes
    · exact (answers _ resumes).elim
    · cases resumes
  case h_4 =>
    cases top : frame.stack.head? <;> rw [top] at resumes <;> cases resumes
  case h_5 =>
    cases current : frame.currentException? routine.regions <;> rw [current] at resumes <;>
      cases resumes
  case h_6 target _ _ =>
    cases placed : routine.body.position? target <;> rw [placed] at resumes <;> cases resumes
  case h_7 isEndfinally => exact isEndfinally
  case h_8 => cases resumes

end Routine

end Splice
