import Splice.Proofs.Emulation.Completion
import Splice.Proofs.Emulation.Conduct

/-!
# Depth of the evaluation stack

What an instruction leaves on the stack can be told from what was there before it, as long as the
run goes on with the next instruction. Along straight code the depths add up. Where a routine
encloses another, its stack is that of the other as long as the other runs.
-/

namespace Splice

variable {σ : Type} {routine : Routine} {host : Host σ} {frame next rest : Frame}
variable {world after ended : σ} {depth before : Nat} {id : InstrId} {instruction : Instruction}
variable {code : List Instruction} {isInstance : Value → TypeExpr → Bool}

/-! ## Runs -/

namespace Routine

/-- The stack holds no more than so many values, neither now nor after any step of a run that goes
on from the frame. -/
def StaysWithin (routine : Routine) (host : Host σ) (depth : Nat) (frame : Frame) (world : σ) :
    Prop :=
  ∀ ops last ended, Path routine host frame world ops last ended → last.stack.length ≤ depth

namespace StaysWithin

theorem here (within : routine.StaysWithin host depth frame world) : frame.stack.length ≤ depth :=
  within [] frame world (.refl frame world)

theorem of_step_goOn (within : routine.StaysWithin host depth frame world)
    (fetched : routine.fetch? frame.position = some (id, instruction))
    (stepped : routine.step host frame id instruction world = (.ok (.goOn next), after)) :
    routine.StaysWithin host depth next after :=
  fun _ last ended path => within _ last ended (.step fetched stepped path)

/-- A run stays within a depth if its first frame does and what follows it. -/
theorem intro (fetched : routine.fetch? frame.position = some (id, instruction))
    (small : frame.stack.length ≤ depth)
    (goesOn : ∀ next after,
      routine.step host frame id instruction world = (.ok (.goOn next), after) →
        routine.StaysWithin host depth next after) :
    routine.StaysWithin host depth frame world := by
  intro ops last ended path
  cases path with
  | refl => exact small
  | step fetchedThen stepped path =>
      cases fetched.symm.trans fetchedThen
      exact goesOn _ _ stepped _ _ _ path

theorem step (fetched : routine.fetch? frame.position = some (id, instruction))
    (stepped : routine.step host frame id instruction world = (.ok (.goOn next), after))
    (small : frame.stack.length ≤ depth) (within : routine.StaysWithin host depth next after) :
    routine.StaysWithin host depth frame world := by
  refine intro fetched small fun other ended steppedThen => ?_
  cases stepped.symm.trans steppedThen
  exact within

theorem of_path {op : Op} (path : Path routine host frame world [op] next after)
    (small : frame.stack.length ≤ depth) (within : routine.StaysWithin host depth next after) :
    routine.StaysWithin host depth frame world := by
  cases path with
  | step fetched stepped rest =>
      cases rest
      exact .step fetched stepped small within

theorem finish {completion : Completion}
    (fetched : routine.fetch? frame.position = some (id, instruction))
    (stepped : routine.step host frame id instruction world = (.ok (.finish completion), after))
    (small : frame.stack.length ≤ depth) : routine.StaysWithin host depth frame world := by
  refine intro fetched small fun next ended steppedThen => ?_
  cases stepped.symm.trans steppedThen

theorem ret (fetched : routine.fetch? frame.position = some (id, instruction))
    (isRet : instruction.op = .ret) (small : frame.stack.length ≤ depth) :
    routine.StaysWithin host depth frame world :=
  intro fetched small fun next after stepped =>
    absurd isRet (op_ne_ret_of_step stepped nofun)

/-- An exception that is thrown again in no protected range ends the run. -/
theorem rethrow {operand : Operand}
    (fetched : routine.fetch? frame.position = some (id, ⟨.rethrow, operand⟩))
    (unguarded : ∀ region ∈ routine.regions, region.guarded.contains frame.position = false)
    (small : frame.stack.length ≤ depth) : routine.StaysWithin host depth frame world := by
  refine intro fetched small fun next after stepped => ?_
  simp only [Routine.step, compute] at stepped
  split at stepped
  · rw [raise_of_unguarded unguarded] at stepped
    cases stepped
  · cases stepped

end StaysWithin

/-- The greatest depth of the stack in a run from the frame, if the run ends within the budget. -/
def peak? (routine : Routine) (host : Host σ) : (budget : Nat) → Frame → σ → Option Nat
  | 0, _, _ => none
  | budget + 1, frame, world =>
    match routine.fetch? frame.position with
    | none => some frame.stack.length
    | some (id, instruction) =>
      match routine.step host frame id instruction world with
      | (.ok (.goOn next), after) =>
        (routine.peak? host budget next after).map (max frame.stack.length)
      | _ => some frame.stack.length

theorem staysWithin_iff_of_peak? {budget peak : Nat}
    (ends : routine.peak? host budget frame world = some peak) :
    routine.StaysWithin host depth frame world ↔ peak ≤ depth := by
  induction budget generalizing frame world peak with
  | zero => cases ends
  | succ budget ih =>
      rw [peak?] at ends
      split at ends
      next nothing =>
        cases ends
        constructor
        · exact StaysWithin.here
        · intro small ops last ended path
          cases path with
          | refl => exact small
          | step fetched => cases nothing.symm.trans fetched
      next id instruction fetched =>
        split at ends
        next next after stepped =>
          obtain ⟨later, endsLater, rfl⟩ := Option.map_eq_some_iff.mp ends
          rw [Nat.max_le]
          constructor
          · intro within
            exact ⟨within.here, (ih endsLater).mp (within.of_step_goOn fetched stepped)⟩
          · intro ⟨small, rest⟩
            exact .step fetched stepped small ((ih endsLater).mpr rest)
        next halts =>
          cases ends
          constructor
          · exact StaysWithin.here
          · intro small
            exact .intro fetched small fun next after stepped => absurd stepped (halts next after)

end Routine

/-! ## Straight code -/

/-- Whether a run that goes on from the operation goes on with the next instruction, unless the
operation throws. -/
def Op.isStraight : Op → Bool
  | .br | .brtrue | .brfalse | .ret | .throw | .rethrow | .leave | .endfinally => false
  | _ => true

namespace Instruction

/-- How many values the stack holds after an instruction of straight code. -/
def depthAfter (instruction : Instruction) (depth : Nat) : Nat :=
  match instruction.op, instruction.operand with
  | .ldarg, _ | .ldloc, _ | .ldnull, _ | .ldcI4, _ | .ldstr, _ | .dup, _ => depth + 1
  | .stloc, _ | .pop, _ => depth - 1
  | .add, _ | .sub, _ | .mul, _ | .ceq, _ | .clt, _ | .cgt, _ => depth - 1
  | .call, .member callee | .callvirt, .member callee =>
    depth - callee.stackArguments + if callee.returns.isVoid then 0 else 1
  | .newobj, .member constructor => depth - constructor.parameters.length + 1
  | _, _ => depth

theorem depthAfter_mono (instruction : Instruction) : Monotone instruction.depthAfter := by
  intro less more within
  unfold depthAfter
  split <;> omega

@[simp] theorem depthAfter_storeSlot (slot depth : Nat) :
    (storeSlot slot).depthAfter depth = depth - 1 := rfl

@[simp] theorem depthAfter_loadSlot (slot depth : Nat) :
    (loadSlot slot).depthAfter depth = depth + 1 := rfl

@[simp] theorem depthAfter_call (callee : MemberRef) (depth : Nat) :
    (invoke .call callee).depthAfter depth =
      depth - callee.stackArguments + if callee.returns.isVoid then 0 else 1 := rfl

@[simp] theorem depthAfter_callvirt (callee : MemberRef) (depth : Nat) :
    (invoke .callvirt callee).depthAfter depth =
      depth - callee.stackArguments + if callee.returns.isVoid then 0 else 1 := rfl

@[simp] theorem depthAfter_newobj (constructor : MemberRef) (depth : Nat) :
    (invoke .newobj constructor).depthAfter depth =
      depth - constructor.parameters.length + 1 := rfl

/-- The depth after straight code. -/
def finalDepth : List Instruction → Nat → Nat
  | [], depth => depth
  | instruction :: rest, depth => finalDepth rest (instruction.depthAfter depth)

/-- The greatest depth in straight code, before it or after any of its instructions. -/
def peakDepth : List Instruction → Nat → Nat
  | [], depth => depth
  | instruction :: rest, depth => max depth (peakDepth rest (instruction.depthAfter depth))

end Instruction

/-- If the turn goes on, then with the next instruction and at most so many values on the stack. -/
def Frame.Advances (frame : Frame) (depth : Nat) (result : Except Fault Turn) : Prop :=
  ∀ next, result = .ok (.goOn next) → next.position = frame.position + 1 ∧
    next.pending = frame.pending ∧ next.stack.length ≤ depth

theorem length_of_popMany {count : Nat} {values : List Value}
    (popped : frame.popMany count = .ok (values, next)) :
    next.stack.length = frame.stack.length - count := by
  simp only [Frame.popMany] at popped
  split at popped
  · cases popped
  · cases popped
    exact List.length_drop

theorem stack_of_store {index : Nat} {value : Value}
    (stored : frame.store index value = .ok next) : next.stack = frame.stack := by
  simp only [Frame.store] at stored
  split at stored <;> cases stored
  rfl

theorem length_of_takeArguments {callee : MemberRef} {receiver : Option Value}
    {arguments : List Value}
    (taken : Routine.takeArguments frame callee = .ok (receiver, arguments, next)) :
    next.stack.length = frame.stack.length - callee.stackArguments := by
  simp only [Routine.takeArguments, bind_eq_ok_iff] at taken
  obtain ⟨⟨values, rest⟩, popped, taken⟩ := taken
  have length := length_of_popMany popped
  unfold MemberRef.stackArguments
  split at taken
  next hasThis =>
    simp only [bind_eq_ok_iff, pure_eq_ok_iff] at taken
    obtain ⟨⟨value, last⟩, poppedThen, taken⟩ := taken
    cases taken
    have stack := congrArg List.length (sharesControl_of_pop poppedThen).2
    rw [List.length_cons] at stack
    rw [hasThis, Bool.toNat_true]
    dsimp only at length ⊢
    omega
  next hasNoThis =>
    cases taken
    rw [Bool.not_eq_true] at hasNoThis
    rw [hasNoThis]
    exact length

namespace Frame.Advances

theorem error (fault : Fault) : frame.Advances depth (.error fault) := nofun

theorem bind {α : Type} {part : Except Fault α} {rest : α → Except Fault Turn}
    (advances : ∀ value, part = .ok value → frame.Advances depth (rest value)) :
    frame.Advances depth (part >>= rest) := by
  cases part with
  | ok value => exact advances value rfl
  | error fault => exact nofun

theorem advance (shares : rest.SharesControl frame) (small : rest.stack.length ≤ depth) :
    frame.Advances depth (.ok (.goOn rest.advance)) := by
  rintro _ ⟨⟩
  exact ⟨congrArg (· + 1) shares.position, shares.pending, small⟩

theorem push (shares : rest.SharesControl frame) (small : rest.stack.length + 1 ≤ depth)
    (value : Value) : frame.Advances depth (.ok (.goOn (rest.push value).advance)) := by
  have sharesThen : (rest.push value).SharesControl frame :=
    ⟨shares.pending, shares.caught, shares.position⟩
  exact .advance sharesThen small

theorem binary (operation : Value → Value → Except Fault Value) :
    frame.Advances (frame.stack.length - 1) (Routine.binary frame operation) := by
  refine .bind fun (right, first) poppedFirst => .bind fun (left, second) poppedSecond => ?_
  have ⟨shares, stack⟩ := sharesControl_of_pop poppedFirst
  have ⟨sharesThen, stackThen⟩ := sharesControl_of_pop poppedSecond
  refine .bind fun value _ => .push (sharesThen.trans shares) ?_ value
  simp [stack, stackThen]

/-- An exception that is raised in no protected range does not go on. -/
theorem raise {regions : List Region}
    (unguarded : ∀ region ∈ regions, region.guarded.contains frame.position = false)
    (shares : rest.SharesControl frame) (exception : Value) :
    frame.Advances depth (.ok (rest.raise regions isInstance exception)) := by
  rw [← shares.position] at unguarded
  rw [Routine.raise_of_unguarded unguarded]
  exact nofun

theorem afterCall
    (unguarded : ∀ region ∈ routine.regions, region.guarded.contains frame.position = false)
    (shares : rest.SharesControl frame) (discards : Bool) (completion : Completion) :
    frame.Advances (rest.stack.length + if discards then 0 else 1)
      (.ok (routine.afterCall host rest discards after completion)) := by
  cases completion with
  | threw exception => exact .raise unguarded shares exception
  | returned value =>
      cases value with
      | none => exact .advance shares (Nat.le_add_right _ _)
      | some value =>
          cases discards with
          | true => exact .advance shares (Nat.le_refl _)
          | false => exact .push shares (Nat.le_refl _) value

end Frame.Advances

namespace Routine

theorem advances_call {callee : MemberRef}
    (unguarded : ∀ region ∈ routine.regions, region.guarded.contains frame.position = false) :
    frame.Advances
      (frame.stack.length - callee.stackArguments + if callee.returns.isVoid then 0 else 1)
      (routine.call host frame callee world).1 := by
  intro next called
  obtain ⟨receiver, arguments, rest, completion, taken, _, goes⟩ :=
    call_eq_ok_iff.mp (Prod.ext called rfl)
  rw [← length_of_takeArguments taken]
  have shares := sharesControl_of_takeArguments taken
  exact Frame.Advances.afterCall unguarded shares _ completion next (congrArg _ goes)

theorem advances_construct {constructor : MemberRef}
    (unguarded : ∀ region ∈ routine.regions, region.guarded.contains frame.position = false) :
    frame.Advances (frame.stack.length - constructor.parameters.length + 1)
      (routine.construct host frame constructor world).1 := by
  intro next constructed
  obtain ⟨arguments, rest, completion, taken, _, _, goes⟩ :=
    construct_eq_ok_iff.mp (Prod.ext constructed rfl)
  rw [← length_of_popMany taken]
  have shares := sharesControl_of_popMany taken
  exact Frame.Advances.afterCall unguarded shares false completion next (congrArg _ goes)

theorem advances_compute (straight : instruction.op.isStraight = true) :
    frame.Advances (instruction.depthAfter frame.stack.length)
      (routine.compute isInstance frame id instruction) := by
  obtain ⟨op, operand⟩ := instruction
  have here : frame.SharesControl frame := ⟨rfl, rfl, rfl⟩
  cases op with
  | br | brtrue | brfalse | ret | throw | rethrow | leave | endfinally => cases straight
  | nop => exact .advance here (Nat.le_refl _)
  | ldnull => exact .push here (Nat.le_refl _) .null
  | call | callvirt | newobj => exact .error _
  | ldarg =>
      cases operand with
      | argument index => exact .bind fun value _ => .push here (Nat.le_refl _) value
      | _ => exact .error _
  | ldloc =>
      cases operand with
      | slot index => exact .bind fun value _ => .push here (Nat.le_refl _) value
      | _ => exact .error _
  | stloc =>
      cases operand with
      | slot index =>
          refine .bind fun (value, rest) popped => .bind fun stored storing => ?_
          have ⟨shares, stack⟩ := sharesControl_of_pop popped
          refine .advance ((sharesControl_of_store storing).trans shares) ?_
          simp [Instruction.depthAfter, stack, stack_of_store storing]
      | _ => exact .error _
  | ldcI4 =>
      cases operand with
      | int32 value => exact .push here (Nat.le_refl _) _
      | _ => exact .error _
  | ldstr =>
      cases operand with
      | string value => exact .push here (Nat.le_refl _) _
      | _ => exact .error _
  | dup =>
      refine .bind fun (value, rest) popped => ?_
      have ⟨shares, stack⟩ := sharesControl_of_pop popped
      have sharesOnce : (rest.push value).SharesControl frame :=
        ⟨shares.pending, shares.caught, shares.position⟩
      refine .push sharesOnce ?_ value
      simp [Instruction.depthAfter, Frame.push, stack]
  | pop =>
      refine .bind fun (value, rest) popped => ?_
      have ⟨shares, stack⟩ := sharesControl_of_pop popped
      refine .advance shares ?_
      simp [Instruction.depthAfter, stack]
  | add | sub | mul | ceq | clt | cgt => exact .binary _

/-- A step of straight code outside of the protected ranges goes on with the next instruction. -/
theorem advances_of_step (straight : instruction.op.isStraight = true)
    (unguarded : ∀ region ∈ routine.regions, region.guarded.contains frame.position = false) :
    frame.Advances (instruction.depthAfter frame.stack.length)
      (routine.step host frame id instruction world).1 := by
  obtain ⟨op, operand⟩ := instruction
  simp only [step]
  split
  · exact advances_call unguarded
  · exact advances_call unguarded
  · exact advances_construct unguarded
  · exact advances_compute straight

/-- Straight code stands from the position on, in no protected range. -/
structure HasStraight (routine : Routine) (code : List Instruction) (position : Nat) : Prop where
  fetch : ∀ offset instruction, code[offset]? = some instruction →
    ∃ id, routine.fetch? (position + offset) = some (id, instruction)
  unguarded : ∀ offset < code.length, ∀ region ∈ routine.regions,
    region.guarded.contains (position + offset) = false
  straight : ∀ instruction ∈ code, instruction.op.isStraight = true

theorem HasStraight.tail {position : Nat}
    (stands : routine.HasStraight (instruction :: code) position) :
    routine.HasStraight code (position + 1) where
  fetch := by
    intro offset found placed
    rw [Nat.add_assoc, Nat.add_comm 1]
    exact stands.fetch (offset + 1) found placed
  unguarded := by
    intro offset inside
    rw [Nat.add_assoc, Nat.add_comm 1]
    exact stands.unguarded (offset + 1) (Nat.succ_lt_succ inside)
  straight := fun found member => stands.straight found (List.mem_cons_of_mem instruction member)

/-- A run through straight code stays within its greatest depth and comes out with its final one. -/
theorem StaysWithin.straight (stands : routine.HasStraight code frame.position)
    (small : frame.stack.length ≤ before) (peak : Instruction.peakDepth code before ≤ depth)
    (goesOn : ∀ next after, next.position = frame.position + code.length →
      next.pending = frame.pending → next.stack.length ≤ Instruction.finalDepth code before →
        routine.StaysWithin host depth next after) :
    routine.StaysWithin host depth frame world := by
  induction code generalizing frame before world with
  | nil => exact goesOn frame world rfl rfl small
  | cons instruction rest ih =>
      rw [Instruction.peakDepth, Nat.max_le] at peak
      obtain ⟨id, fetched⟩ := stands.fetch 0 instruction rfl
      have unguarded := stands.unguarded 0 (Nat.succ_pos _)
      have straight := stands.straight instruction List.mem_cons_self
      refine .intro fetched (small.trans peak.1) fun next after stepped => ?_
      have advances : frame.Advances (instruction.depthAfter frame.stack.length)
          (routine.step host frame id instruction world).1 := advances_of_step straight unguarded
      obtain ⟨position, pending, depths⟩ := advances next (congrArg Prod.fst stepped)
      refine ih (position ▸ stands.tail) (depths.trans (instruction.depthAfter_mono small)) peak.2
        fun last ended arrived waits => ?_
      apply goesOn last ended
      · rw [arrived, position, List.length_cons, Nat.add_assoc, Nat.add_comm 1]
      · exact waits.trans pending

end Routine

/-! ## Enclosed runs -/

namespace Routine

variable {inner outer : Routine} {place : Nat → Nat} {extra : Region} {limit steps : Nat}
variable {spare arguments : Array Value} {completion : Completion}

/-- A run of the outer routine stays within a depth if the run of the inner one does, which
completes, and if what follows the return or the exception of the inner one does. -/
theorem staysWithin_enclose (encloses : outer.Encloses place extra inner)
    (fits : frame.Fits inner arguments)
    (completes : inner.Completes host frame world steps completion ended)
    (within : inner.StaysWithin host depth frame world) (enough : depth ≤ limit)
    (returns : ∀ ops (last : Frame) between id instruction,
      Path inner host frame world ops last between → last.Fits inner arguments →
      last.stack.length ≤ depth → inner.fetch? last.position = some (id, instruction) →
      instruction.op = .ret →
        outer.StaysWithin host limit (last.enclose place spare) between)
    (throws : ∀ (last entered : Frame) exception origin, last.Fits inner arguments →
      origin < inner.body.length →
      (last.enclose place spare).unwind outer.regions (host.isInstance ended) exception
        (place origin) inner.regions.length = .goOn entered →
        outer.StaysWithin host limit entered ended) :
    outer.StaysWithin host limit (frame.enclose place spare) world := by
  have small : (frame.enclose place spare).stack.length ≤ limit := within.here.trans enough
  induction completes with
  | @finish frame world ended id instruction completion fetched stepped =>
      cases completion with
      | returned value =>
          have isRet := op_of_step_returned stepped
          exact returns [] frame world id instruction (.refl frame world) fits within.here fetched
            isRet
      | threw exception =>
          obtain ⟨fetchedOuter, last, origin, fitsLast, inside, steppedOuter⟩ :=
            step_threw encloses fits fetched stepped
          refine .intro fetchedOuter small fun entered after steppedThen => ?_
          obtain ⟨turn, rfl⟩ := Prod.mk.inj (steppedOuter.symm.trans steppedThen)
          exact throws last entered exception origin fitsLast inside (Except.ok.inj turn)
  | step fetched stepped _ ih =>
      obtain ⟨fetchedOuter, steppedOuter, fitsMiddle⟩ := step_goOn encloses fits fetched stepped
      have withinMiddle := within.of_step_goOn fetched stepped
      refine .step fetchedOuter steppedOuter small ?_
      refine ih fitsMiddle withinMiddle ?_ throws (withinMiddle.here.trans enough)
      intro ops last between id instruction path
      exact returns _ last between id instruction (.step fetched stepped path)

end Routine

end Splice
