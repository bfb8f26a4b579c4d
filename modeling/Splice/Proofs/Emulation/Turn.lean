import Splice.Emulation.Step
import Splice.Proofs.Success

/-!
# Turns

What an instruction can come to. Only a return ends a run with a value, and a spent budget is never
the fault of an instruction, unless the host reports it.
-/

namespace Splice

/-- A step that stays in the run: it faults for a reason of its own, goes on or throws. -/
def StaysInRun : Except Fault Turn → Prop
  | .error (.stepLimit _) => False
  | .ok (.finish (.returned _)) => False
  | _ => True

/-- A part of a step that does not fault for a spent budget. -/
def WithinBudget {α : Type} (result : Except Fault α) : Prop :=
  ∀ limit, result ≠ .error (.stepLimit limit)

theorem WithinBudget.bind {α β : Type} {part : Except Fault α} {next : α → Except Fault β}
    (within : WithinBudget part) (after : ∀ value, WithinBudget (next value)) :
    WithinBudget (part >>= next) := by
  cases part with
  | ok value => exact after value
  | error fault =>
      intro limit same
      cases same
      exact within limit rfl

theorem StaysInRun.bind {α : Type} {part : Except Fault α} {next : α → Except Fault Turn}
    (within : WithinBudget part) (stays : ∀ value, StaysInRun (next value)) :
    StaysInRun (part >>= next) := by
  cases part with
  | ok value => exact stays value
  | error fault =>
      cases fault with
      | stepLimit limit => exact absurd rfl (within limit)
      | _ => trivial

section Parts

variable {frame : Frame} {routine : Routine} {isInstance : Value → TypeExpr → Bool}

theorem withinBudget_pop : WithinBudget frame.pop := by
  intro limit same
  simp only [Frame.pop] at same
  split at same <;> cases same

theorem withinBudget_popMany (count : Nat) : WithinBudget (frame.popMany count) := by
  intro limit same
  simp only [Frame.popMany] at same
  split at same <;> cases same

theorem withinBudget_argument (index : Nat) : WithinBudget (frame.argument index) := by
  intro limit same
  simp only [Frame.argument] at same
  split at same <;> cases same

theorem withinBudget_slotAt (index : Nat) : WithinBudget (frame.slotAt index) := by
  intro limit same
  simp only [Frame.slotAt] at same
  split at same <;> cases same

theorem withinBudget_store (index : Nat) (value : Value) :
    WithinBudget (frame.store index value) := by
  intro limit same
  simp only [Frame.store] at same
  split at same <;> cases same

theorem withinBudget_locate (body : Body) (target : InstrId) :
    WithinBudget (body.locate target) := by
  intro limit same
  simp only [Body.locate] at same
  split at same <;> cases same

theorem withinBudget_arithmetic (op : Op) (left right : Value) :
    WithinBudget (Value.arithmetic op left right) := by
  intro limit same
  simp only [Value.arithmetic] at same
  split at same <;> cases same

theorem withinBudget_compare (op : Op) (left right : Value) :
    WithinBudget (Value.compare op left right) := by
  intro limit same
  simp only [Value.compare] at same
  repeat' split at same
  all_goals cases same

theorem staysInRun_unwind (regions : List Region) (exception : Value) (origin next : Nat) :
    StaysInRun (.ok (frame.unwind regions isInstance exception origin next)) := by
  simp only [Frame.unwind]
  split
  · trivial
  · split <;> trivial

theorem staysInRun_endFinally (regions : List Region) :
    StaysInRun (frame.endFinally regions isInstance) := by
  simp only [Frame.endFinally]
  split
  · trivial
  · exact staysInRun_unwind _ _ _ _
  · trivial

theorem staysInRun_binary {operation : Value → Value → Except Fault Value}
    (within : ∀ left right, WithinBudget (operation left right)) :
    StaysInRun (Routine.binary frame operation) :=
  .bind withinBudget_pop fun _ =>
    .bind withinBudget_pop fun _ => .bind (within _ _) fun _ => trivial

theorem staysInRun_branchIf (wanted : Bool) (target : InstrId) :
    StaysInRun (routine.branchIf frame wanted target) := by
  refine .bind withinBudget_pop fun _ => ?_
  dsimp only
  split
  · exact .bind (withinBudget_locate _ _) fun _ => trivial
  · trivial

end Parts

namespace Routine

variable {σ : Type} {routine : Routine} {host : Host σ} {frame : Frame} {world ended : σ}
variable {isInstance : Value → TypeExpr → Bool} {id : InstrId} {instruction : Instruction}

theorem staysInRun_compute (notRet : instruction.op ≠ .ret) :
    StaysInRun (routine.compute isInstance frame id instruction) := by
  obtain ⟨op, operand⟩ := instruction
  cases op with
  | nop | ldnull | call | callvirt | newobj => trivial
  | ret => exact absurd rfl notRet
  | ldarg =>
      cases operand with
      | argument index => exact .bind (withinBudget_argument index) fun _ => trivial
      | _ => trivial
  | ldloc =>
      cases operand with
      | slot index => exact .bind (withinBudget_slotAt index) fun _ => trivial
      | _ => trivial
  | stloc =>
      cases operand with
      | slot index =>
          exact .bind withinBudget_pop fun _ => .bind (withinBudget_store index _) fun _ => trivial
      | _ => trivial
  | ldcI4 => cases operand <;> trivial
  | ldstr => cases operand <;> trivial
  | dup | pop => exact .bind withinBudget_pop fun _ => trivial
  | add | sub | mul => exact staysInRun_binary (withinBudget_arithmetic _)
  | ceq | clt | cgt => exact staysInRun_binary (withinBudget_compare _)
  | br =>
      cases operand with
      | target target => exact .bind (withinBudget_locate _ target) fun _ => trivial
      | _ => trivial
  | brtrue | brfalse =>
      cases operand with
      | target target => exact staysInRun_branchIf _ target
      | _ => trivial
  | throw =>
      refine .bind withinBudget_pop fun (value, rest) => ?_
      cases value with
      | null => trivial
      | _ => exact staysInRun_unwind _ _ _ _
  | rethrow =>
      simp only [compute]
      split
      · exact staysInRun_unwind _ _ _ _
      · trivial
  | leave =>
      cases operand with
      | target target => exact .bind (withinBudget_locate _ target) fun _ => trivial
      | _ => trivial
  | endfinally => exact staysInRun_endFinally _

theorem staysInRun_afterCall (discards : Bool) (completion : Completion) :
    StaysInRun (.ok (routine.afterCall host frame discards world completion)) := by
  cases completion with
  | returned value => cases value <;> trivial
  | threw exception => exact staysInRun_unwind _ _ _ _

theorem withinBudget_takeArguments (callee : MemberRef) :
    WithinBudget (takeArguments frame callee) := by
  refine .bind (withinBudget_popMany _) fun _ => ?_
  dsimp only
  split
  · exact .bind withinBudget_pop fun _ => nofun
  · nofun

/-- A return either faults or ends the run. -/
theorem step_ret (isRet : instruction.op = .ret) :
    routine.step host frame id instruction world =
      (if routine.isVoid then .ok (.finish (.returned none))
        else do
          let (value, _) ← frame.pop
          return .finish (.returned (some value)), world) := by
  obtain ⟨op, operand⟩ := instruction
  subst isRet
  rfl

/-- A return that does not fault completes the run, with the topmost value unless it is void. -/
theorem turn_of_step_ret {turn : Turn} (isRet : instruction.op = .ret)
    (stepped : routine.step host frame id instruction world = (.ok turn, ended)) :
    world = ended ∧ ((routine.isVoid = true ∧ turn = .finish (.returned none)) ∨
      (routine.isVoid = false ∧ ∃ value rest, frame.pop = .ok (value, rest) ∧
        turn = .finish (.returned (some value)))) := by
  rw [step_ret isRet, Prod.mk.injEq] at stepped
  obtain ⟨returned, same⟩ := stepped
  refine ⟨same, ?_⟩
  split at returned
  next void =>
    cases returned
    exact .inl ⟨void, rfl⟩
  next valued =>
    simp only [bind_eq_ok_iff, pure_eq_ok_iff] at returned
    obtain ⟨⟨value, rest⟩, popped, rfl⟩ := returned
    exact .inr ⟨by simpa using valued, value, rest, popped, rfl⟩

/-- An instruction that goes on or throws is no return. -/
theorem op_ne_ret_of_step {turn : Turn}
    (stepped : routine.step host frame id instruction world = (.ok turn, ended))
    (notReturned : ∀ value, turn ≠ .finish (.returned value)) : instruction.op ≠ .ret := by
  intro isRet
  rcases (turn_of_step_ret isRet stepped).2 with ⟨_, same⟩ | ⟨_, _, _, _, same⟩
  · exact notReturned none same
  · exact notReturned _ same

theorem withinBudget_step_ret (isRet : instruction.op = .ret) :
    WithinBudget (routine.step host frame id instruction world).1 := by
  rw [step_ret isRet]
  dsimp only
  split
  · nofun
  · exact .bind withinBudget_pop fun _ => nofun

/-! ## Calls that are answered -/

theorem call_eq_ok_iff {callee : MemberRef} {turn : Turn} :
    routine.call host frame callee world = (.ok turn, ended) ↔
      ∃ receiver arguments rest completion,
        takeArguments frame callee = .ok (receiver, arguments, rest) ∧
        host.call callee receiver arguments world = (.ok completion, ended) ∧
        routine.afterCall host rest callee.returns.isVoid ended completion = turn := by
  rw [call]
  constructor
  · intro called
    split at called
    · cases called
    next receiver arguments rest taken =>
      split at called
      · cases called
      next completion after answered =>
        cases called
        exact ⟨receiver, arguments, rest, completion, taken, answered, rfl⟩
  · intro ⟨receiver, arguments, rest, completion, taken, answered, goes⟩
    simp only [taken, answered, goes]

/-- A constructor that is answered gives an object or throws. -/
theorem construct_eq_ok_iff {constructor : MemberRef} {turn : Turn} :
    routine.construct host frame constructor world = (.ok turn, ended) ↔
      ∃ arguments rest completion,
        frame.popMany constructor.parameters.length = .ok (arguments, rest) ∧
        host.construct constructor arguments world = (.ok completion, ended) ∧
        completion ≠ .returned none ∧ routine.afterCall host rest false ended completion = turn := by
  rw [construct]
  constructor
  · intro constructed
    split at constructed
    · cases constructed
    next arguments rest taken =>
      split at constructed
      · cases constructed
      · cases constructed
      next completion after object answered =>
        cases constructed
        exact ⟨arguments, rest, completion, taken, answered, object, rfl⟩
  · intro ⟨arguments, rest, completion, taken, answered, object, goes⟩
    simp only [taken, answered, goes]

theorem afterCall_ne_returned {value : Option Value} (discards : Bool)
    (completion : Completion) :
    routine.afterCall host frame discards world completion ≠ .finish (.returned value) := by
  intro same
  have stays : StaysInRun (.ok (routine.afterCall host frame discards world completion)) :=
    staysInRun_afterCall discards completion
  rw [same] at stays
  exact stays

/-- Only a return ends a run with a value. -/
theorem op_of_step_returned {value : Option Value}
    (stepped : routine.step host frame id instruction world =
      (.ok (.finish (.returned value)), ended)) : instruction.op = .ret := by
  by_contra notRet
  simp only [step] at stepped
  split at stepped
  case h_4 =>
    have stays : StaysInRun (routine.compute (host.isInstance world) frame id instruction) :=
      staysInRun_compute notRet
    rw [(Prod.mk.inj stepped).1] at stays
    exact stays
  case h_3 =>
    obtain ⟨_, _, _, _, _, _, goes⟩ := construct_eq_ok_iff.mp stepped
    exact afterCall_ne_returned _ _ goes
  all_goals
    obtain ⟨_, _, _, _, _, _, goes⟩ := call_eq_ok_iff.mp stepped
    exact afterCall_ne_returned _ _ goes

end Routine

end Splice
