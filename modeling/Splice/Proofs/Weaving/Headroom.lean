import Splice.Proofs.Emulation.Depth
import Splice.Proofs.Weaving.Bracketing
import Splice.Proofs.Weaving.Handling

/-!
# Headroom

A body declares how deep the evaluation stack gets. Weaving raises the declared depth to what the
added code needs, and only that code and the code of the body run. So a woven method stays within
its declared depth wherever the method does. A measured method also runs the finally handlers around
a return, which the method itself passes over, so there the method must not return inside of their
protected ranges.
-/

namespace Splice

variable {σ : Type} {host : Host σ} {routine : Routine} {frame : Frame} {world after ended : σ}
variable {body woven next : Body} {method : Method} {first id anchor : InstrId}
variable {instruction : Instruction} {returnSlot : Option Nat} {depth : Nat}
variable {code : List Placed} {regions : List Region} {exception profiler : TypeExpr}

/-- No run that goes on from the frame returns inside of a protected range whose handler would run
when the range is left. -/
def Routine.ReturnsOutside (routine : Routine) (host : Host σ) (frame : Frame) (world : σ) : Prop :=
  ∀ ops last ended id instruction, Path routine host frame world ops last ended →
    routine.fetch? last.position = some (id, instruction) → instruction.op = .ret →
    ∀ region ∈ routine.regions, region.clause.isCatch = false →
      region.guarded.contains last.position = false

namespace Method

/-- No step of an execution leaves more values on the stack than the body declares. -/
def StaysWithinDeclared (method : Method) (host : Host σ) (receiver : Option Value)
    (arguments : List Value) (world : σ) : Prop :=
  ∃ body regions, method.body = some body ∧ body.HasRegions regions ∧
    (method.routineOf body regions).StaysWithin host body.maxStack
      (method.startOf body regions receiver arguments) world

/-- No execution returns inside of a protected range whose handler would run when the range is
left. -/
def ReturnsOutside (method : Method) (host : Host σ) (receiver : Option Value)
    (arguments : List Value) (world : σ) : Prop :=
  ∃ body regions, method.body = some body ∧ body.HasRegions regions ∧
    (method.routineOf body regions).ReturnsOutside host
      (method.startOf body regions receiver arguments) world

/-- Whether an execution that ends within the budget stays within the declared depth. -/
def keepsDeclared? (method : Method) (host : Host σ) (budget : Nat) (receiver : Option Value)
    (arguments : List Value) (world : σ) : Option Bool :=
  match method.body with
  | none => none
  | some body =>
    match body.clauses.mapM (Routine.region body) with
    | .error _ => none
    | .ok regions =>
      ((method.routineOf body regions).peak? host budget
        (method.startOf body regions receiver arguments) world).map (decide <| · ≤ body.maxStack)

theorem staysWithinDeclared_iff_of_keepsDeclared? {budget : Nat} {receiver : Option Value}
    {arguments : List Value} {kept : Bool}
    (ends : method.keepsDeclared? host budget receiver arguments world = some kept) :
    method.StaysWithinDeclared host receiver arguments world ↔ kept = true := by
  rw [keepsDeclared?] at ends
  split at ends
  · cases ends
  next body bodied =>
    split at ends
    · cases ends
    next regions resolved =>
      obtain ⟨peak, peaks, rfl⟩ := Option.map_eq_some_iff.mp ends
      have has := Body.mapM_region_eq_ok_iff.mp resolved
      rw [decide_eq_true_iff, ← Routine.staysWithin_iff_of_peak? peaks]
      constructor
      · intro ⟨same, others, bodiedToo, hasOthers, within⟩
        cases bodiedToo.symm.trans bodied
        cases hasOthers.unique has
        exact within
      · intro within
        exact ⟨body, regions, bodied, has, within⟩

end Method

/-! ## The declared depth -/

namespace Body

theorem maxStack_appendAll (body : Body) (instructions : List Instruction) :
    (body.appendAll instructions).maxStack = body.maxStack := by
  induction instructions generalizing body with
  | nil => rfl
  | cons instruction rest ih => exact ih (body.append instruction).2

theorem maxStack_push (pushed : body.push id = .ok next) : next.maxStack = body.maxStack := by
  simp only [push] at pushed
  split_ifs at pushed
  cases pushed
  rfl

theorem maxStack_insertBefore {inserted : InstrId × Body}
    (inserts : body.insertBefore anchor instruction = .ok inserted) :
    inserted.2.maxStack = body.maxStack := by
  simp only [insertBefore] at inserts
  split at inserts <;> cases inserts
  rfl

theorem maxStack_insertAfter {inserted : InstrId × Body}
    (inserts : body.insertAfter anchor instruction = .ok inserted) :
    inserted.2.maxStack = body.maxStack := by
  simp only [insertAfter] at inserts
  split at inserts <;> cases inserts
  rfl

theorem maxStack_replace (replaces : body.replace id instruction = .ok next) :
    next.maxStack = body.maxStack := by
  simp only [replace] at replaces
  split_ifs at replaces
  cases replaces
  rfl

theorem maxStack_insertAllBefore {instructions : List Instruction}
    (inserts : body.insertAllBefore anchor instructions = .ok next) :
    next.maxStack = body.maxStack := by
  induction instructions generalizing body with
  | nil =>
      cases inserts
      rfl
  | cons instruction rest ih =>
      simp only [insertAllBefore, List.foldlM_cons, bind_eq_ok_iff, pure_eq_ok_iff] at inserts
      obtain ⟨_, ⟨inserted, insertsHere, rfl⟩, insertsRest⟩ := inserts
      exact (ih insertsRest).trans (maxStack_insertBefore insertsHere)

theorem maxStack_routeReturns {exit : InstrId} {ids : List InstrId}
    (routes : ids.foldlM (routeReturn · exit returnSlot) body = .ok next) :
    next.maxStack = body.maxStack := by
  induction ids generalizing body with
  | nil =>
      cases routes
      rfl
  | cons id rest ih =>
      rw [List.foldlM_cons, bind_eq_ok_iff] at routes
      obtain ⟨between, routesHere, routesRest⟩ := routes
      refine (ih routesRest).trans ?_
      cases returnSlot with
      | none => exact maxStack_replace routesHere
      | some slot =>
          simp only [routeReturn, bind_eq_ok_iff, pure_eq_ok_iff] at routesHere
          obtain ⟨replaced, replaces, _, inserts, rfl⟩ := routesHere
          exact (maxStack_insertAfter inserts).trans (maxStack_replace replaces)

/-- A guarded body has room for the handler. -/
theorem maxStack_guard {members : HandlerMembers} {rethrow : Bool}
    (guarded : body.guard method exception members rethrow = .ok woven) :
    woven.maxStack = max body.maxStack handlerDepth := by
  cases start : body.first? with
  | none =>
      rw [guard, start] at guarded
      cases guarded
  | some first =>
      rw [guard_eq start] at guarded
      split_ifs at guarded
      simp only [addHandler, bind_eq_ok_iff, pure_eq_ok_iff] at guarded
      obtain ⟨placed, pushed, _, _, rfl⟩ := guarded
      have kept : placed.maxStack = body.maxStack :=
        (maxStack_push pushed).trans (maxStack_appendAll _ _)
      have exits := (maxStack_appendAll placed (exitTail (method.returnSlot? body))).trans kept
      exact congrArg (max · handlerDepth) exits

/-- A measured body has room for the code that starts and stops the profiler. -/
theorem maxStack_measure {members : ProfilerMembers}
    (measured : body.measure method profiler members = .ok woven) :
    woven.maxStack = max body.maxStack measureDepth := by
  cases start : body.first? with
  | none =>
      rw [measure, start] at measured
      cases measured
  | some first =>
      rw [measure_eq start] at measured
      split_ifs at measured
      simp only [addProfiler, bind_eq_ok_iff, pure_eq_ok_iff] at measured
      obtain ⟨started, inserts, routed, routes, stopped, pushesStop, placed, pushesExit, _, _,
        rfl⟩ := measured
      have kept : started.maxStack = body.maxStack :=
        (maxStack_insertAllBefore inserts).trans rfl
      have kept : routed.maxStack = body.maxStack := (maxStack_routeReturns routes).trans kept
      have kept : stopped.maxStack = body.maxStack := (maxStack_push pushesStop).trans kept
      have kept : placed.maxStack = body.maxStack :=
        (maxStack_push pushesExit).trans ((maxStack_appendAll _ _).trans kept)
      have exits := (maxStack_appendAll placed (exitTail (method.returnSlot? body))).trans kept
      exact congrArg (max · measureDepth) exits

end Body

/-! ## The shared exit -/

theorem exists_getElem?_exit (exit : InstrId) (fresh : Nat) {offset : Nat}
    (found : (Body.exitHead returnSlot :: Body.exitTail returnSlot)[offset]? = some instruction) :
    ∃ id, ((exit, Body.exitHead returnSlot) ::
      numbered fresh (Body.exitTail returnSlot))[offset]? = some (id, instruction) := by
  cases offset with
  | zero =>
      rw [List.getElem?_cons_zero, Option.some.injEq] at found
      exact ⟨exit, by rw [List.getElem?_cons_zero, found]⟩
  | succ offset =>
      rw [List.getElem?_cons_succ] at found
      exact ⟨_, by rw [List.getElem?_cons_succ, getElem?_numbered, found, Option.map_some]⟩

namespace Routine.StaysWithin

/-- The code at the exit loads at most one value. -/
theorem exit
    (fetches : ∀ offset instruction,
      (Body.exitHead returnSlot :: Body.exitTail returnSlot)[offset]? = some instruction →
        ∃ id, routine.fetch? (frame.position + offset) = some (id, instruction))
    (unguarded : ∀ region ∈ routine.regions, region.guarded.contains frame.position = false)
    (empty : frame.stack = []) (room : 1 ≤ depth) :
    routine.StaysWithin host depth frame world := by
  have small : frame.stack.length ≤ 0 := Nat.le_of_eq (congrArg List.length empty)
  cases returnSlot with
  | none =>
      obtain ⟨id, fetched⟩ := fetches 0 _ rfl
      exact .ret fetched rfl (small.trans (Nat.zero_le depth))
  | some slot =>
      have loads : routine.HasStraight [.loadSlot slot] frame.position := by
        refine ⟨?_, ?_, List.forall_mem_singleton.mpr rfl⟩
        · intro offset instruction found
          exact fetches offset instruction ((List.getElem?_append_left
            (List.getElem?_eq_some_iff.mp found).1).trans found)
        · intro offset inside
          obtain rfl : offset = 0 := Nat.lt_one_iff.mp inside
          exact unguarded
      refine .straight loads small (Nat.max_le.mpr ⟨Nat.zero_le _, room⟩) ?_
      intro next after behind _ one
      obtain ⟨id, fetched⟩ := fetches 1 _ rfl
      have fetchedThen : routine.fetch? next.position = some (id, ⟨.ret, .none⟩) := by
        rw [behind]
        exact fetched
      exact .ret fetchedThen rfl (one.trans room)

end Routine.StaysWithin

/-! ## Guarded bodies -/

theorem guardHandler_eq (method : Method) (members : HandlerMembers) (slot : Nat)
    (rethrow : Bool) : guardHandler method members slot rethrow =
      guardHandler method members slot false ++ if rethrow then [⟨.rethrow, .none⟩] else [] := by
  simp [guardHandler, handlerCode]

theorem isStraight_guardHandler (method : Method) (members : HandlerMembers) (slot : Nat) :
    ∀ instruction ∈ guardHandler method members slot false, instruction.op.isStraight = true := by
  have loads : method.loadInstance.op.isStraight = true := by
    rw [Method.loadInstance]
    split <;> rfl
  simp only [guardHandler, handlerCode, Bool.false_eq_true, if_false, List.append_nil,
    List.forall_mem_cons, loads]
  exact ⟨rfl, rfl, rfl, trivial, rfl, rfl, List.forall_mem_nil _⟩

theorem depthAfter_loadInstance (method : Method) (depth : Nat) :
    method.loadInstance.depthAfter depth = depth + 1 := by
  rw [Method.loadInstance]
  split <;> rfl

/-- The handler is entered with the exception on the stack. -/
theorem peakDepth_guardHandler {members : HandlerMembers} (callable : members.AreCallable)
    (method : Method) (slot : Nat) :
    Instruction.peakDepth (guardHandler method members slot false) 1 ≤ handlerDepth ∧
      Instruction.finalDepth (guardHandler method members slot false) 1 = 0 := by
  simp only [guardHandler, handlerCode, List.cons_append, List.nil_append, Bool.false_eq_true,
    if_false, Instruction.peakDepth, Instruction.finalDepth, depthAfter_loadInstance,
    Instruction.depthAfter_storeSlot, Instruction.depthAfter_newobj,
    Instruction.depthAfter_loadSlot, Instruction.depthAfter_call, Instruction.depthAfter_callvirt,
    callable.construct, List.length_nil, callable.currentMethod.stackArguments,
    callable.handle.stackArguments, callable.handle.isVoid, if_true]
  cases members.currentMethod.returns.isVoid <;> decide

namespace Body.IsGuarded

variable {members : HandlerMembers} {rethrow : Bool}

section

variable (isGuarded : woven.IsGuarded body method exception
  (guardHandler method members (body.addedSlot method) rethrow) first code)
  (has : body.HasRegions regions)
include isGuarded has

theorem hasStraight_handler :
    (guardRoutine method woven body exception members rethrow first regions).HasStraight
      (guardHandler method members (body.addedSlot method) false) body.length where
  fetch := by
    intro offset instruction found
    have within : (guardHandler method members (body.addedSlot method) rethrow)[offset]? =
        some instruction := by
      rw [guardHandler_eq, List.getElem?_append_left (List.getElem?_eq_some_iff.mp found).1, found]
    exact ⟨_, (isGuarded.fetch?_added rfl offset).trans (getElem?_guardCode_handler _ within)⟩
  unguarded := fun offset _ =>
    isGuarded.unguarded_added (guardHandler_ne_nil _ _ _ _) has offset
  straight := isStraight_guardHandler _ _ _

/-- Behind the call of the handler the exception is thrown again or the method returns. -/
theorem staysWithin_afterReport (position : frame.position = body.length + 6)
    (empty : frame.stack.length ≤ 0) (room : 1 ≤ depth) :
    (guardRoutine method woven body exception members rethrow first regions).StaysWithin host depth
      frame world := by
  have small := empty.trans (Nat.zero_le depth)
  have unguarded : ∀ offset, ∀ region ∈ (guardRoutine method woven body exception members rethrow
      first regions).regions, region.guarded.contains (body.length + offset) = false :=
    isGuarded.unguarded_added (guardHandler_ne_nil _ _ _ _) has
  have fetch := isGuarded.fetch?_added (rfl : (guardRoutine method woven body exception members
    rethrow first regions).body = woven)
  have here := unguarded 6
  rw [← position] at here
  cases rethrow with
  | true =>
      have fetched := fetch 6
      rw [← position] at fetched
      exact .rethrow fetched here small
  | false =>
      have exits : woven.position? ⟨body.arena.size + 6⟩ = some (body.length + 7) :=
        (isGuarded.surrounds (guardHandler_ne_nil _ _ _ _)).placed.handlerEnd
      have fetched := fetch 6
      rw [← position] at fetched
      refine .step fetched (Routine.step_leaveTo exits) small ?_
      rw [Routine.leave_of_unguarded here]
      have fetches : ∀ offset instruction, (exitHead (method.returnSlot? body) ::
          exitTail (method.returnSlot? body))[offset]? = some instruction →
          ∃ id, (guardRoutine method woven body exception members false first regions).fetch?
            (body.length + 7 + offset) = some (id, instruction) := by
        intro offset instruction found
        obtain ⟨id, exits⟩ := exists_getElem?_exit ⟨body.arena.size + 6⟩ (body.arena.size + 6 + 2)
          found
        have behind : body.length + 7 + offset = body.length + (6 + (offset + 1)) := by omega
        rw [behind]
        exact ⟨id, (fetch _).trans ((getElem?_guardCode_exit offset).trans exits)⟩
      exact .exit fetches (unguarded 7) rfl room

/-- A run stays within the depth for the handler from where the handler is entered. -/
theorem staysWithin_handler (callable : members.AreCallable)
    (position : frame.position = body.length) (one : frame.stack.length ≤ 1)
    (room : handlerDepth ≤ depth) :
    (guardRoutine method woven body exception members rethrow first regions).StaysWithin host depth
      frame world := by
  have ⟨peak, final⟩ := peakDepth_guardHandler callable method (body.addedSlot method)
  have handler : (guardRoutine method woven body exception members rethrow first
      regions).HasStraight (guardHandler method members (body.addedSlot method) false)
        frame.position := position ▸ isGuarded.hasStraight_handler has
  refine .straight handler one (peak.trans room) ?_
  intro next after behind _ empty
  rw [final] at empty
  rw [position] at behind
  exact isGuarded.staysWithin_afterReport has behind empty (le_trans (by decide) room)

end

/-- An exception that comes to the added region enters the handler or ends the run. -/
theorem enters_of_unwind {handler : List Instruction} {isInstance : Value → TypeExpr → Bool}
    {thrown : Value} {origin : Nat} {entered : Frame}
    (unwound : frame.unwind (body.guardRegions exception handler first regions) isInstance thrown
      origin regions.length = .goOn entered) :
    entered.position = body.length ∧ entered.stack.length ≤ 1 := by
  have length : (regions.map (·.shift id)).length = regions.length := List.length_map ..
  rw [guardRegions, ← length, Frame.unwind_last] at unwound
  split at unwound
  · cases unwound.symm.trans (if_pos rfl)
    exact ⟨rfl, Nat.le_refl 1⟩
  · cases unwound

/-- The guarded method stays within its declared depth if the method does, which completes. -/
theorem staysWithin (isGuarded : woven.IsGuarded body method exception
      (guardHandler method members (body.addedSlot method) rethrow) first code)
    (has : body.HasRegions regions) (callable : members.AreCallable)
    {receiver : Option Value} {arguments : List Value} {steps : Nat} {completion : Completion}
    (completes : (method.routineOf body regions).Completes host
      (method.startOf body regions receiver arguments) world steps completion ended)
    (within : (method.routineOf body regions).StaysWithin host body.maxStack
      (method.startOf body regions receiver arguments) world) :
    (guardRoutine method woven body exception members rethrow first regions).StaysWithin host
      (max body.maxStack handlerDepth)
      (method.startOf woven (body.guardRegions exception
        (guardHandler method members (body.addedSlot method) rethrow) first regions) receiver
          arguments) world := by
  have handles := guardHandler_ne_nil method members (body.addedSlot method) rethrow
  rw [isGuarded.startOf_eq]
  refine Routine.staysWithin_enclose (isGuarded.encloses handles regions) (Routine.fits_start _ _)
    completes within (Nat.le_max_left _ _) ?_ ?_
  · intro ops last between id instruction path fits small fetched isRet
    have fetchedOuter : (guardRoutine method woven body exception members rethrow first
        regions).fetch? last.position = some (id, instruction) :=
      (isGuarded.fetch?_code rfl rfl (Routine.fetch?_lt fetched)).trans fetched
    exact .ret fetchedOuter isRet (small.trans (Nat.le_max_left _ _))
  · intro last entered exception origin fits inside unwound
    have ⟨position, one⟩ := enters_of_unwind unwound
    exact isGuarded.staysWithin_handler has callable position one (Nat.le_max_right _ _)

end Body.IsGuarded

/-! ## Measured bodies -/

namespace Body.IsMeasured

variable {members : ProfilerMembers} {object : Value}

section Behind

variable (isMeasured : woven.IsMeasured body method profiler members first code)
  (has : body.HasRegions regions)
include isMeasured has

theorem unguarded_stop (offset : Nat) :
    ∀ region ∈ (measureRoutine method woven body first code regions).regions,
      region.guarded.contains
        (5 + code.length + addedIn (method.returnSlot? body) code + offset) = false :=
  isMeasured.surrounds.unguarded_behind has offset

theorem hasStraight_stop :
    (measureRoutine method woven body first code regions).HasStraight
      [.loadSlot (body.addedSlot method), .invoke .callvirt members.stop]
      (5 + code.length + addedIn (method.returnSlot? body) code) where
  fetch := by
    intro offset instruction found
    match offset, found with
    | 0, found =>
        cases found
        exact ⟨_, isMeasured.fetch?_stop _ 0⟩
    | 1, found =>
        cases found
        exact ⟨_, isMeasured.fetch?_stop _ 1⟩
  unguarded := fun offset _ => isMeasured.unguarded_stop has offset
  straight := List.forall_mem_cons.mpr ⟨rfl, List.forall_mem_singleton.mpr rfl⟩

/-- Stopping the profiler takes one value, and what follows starts with an empty stack. -/
theorem staysWithin_stop (callable : members.AreCallable)
    (position : frame.position = 5 + code.length + addedIn (method.returnSlot? body) code)
    (empty : frame.stack.length ≤ 0) (room : 1 ≤ depth)
    (goesOn : ∀ next after,
      next.position = 5 + code.length + addedIn (method.returnSlot? body) code + 2 →
      next.pending = frame.pending → next.stack.length ≤ 0 →
        (measureRoutine method woven body first code regions).StaysWithin host depth next after) :
    (measureRoutine method woven body first code regions).StaysWithin host depth frame world := by
  have stops : (measureRoutine method woven body first code regions).HasStraight
      [.loadSlot (body.addedSlot method), .invoke .callvirt members.stop] frame.position :=
    position ▸ isMeasured.hasStraight_stop has
  have stopped : (Instruction.invoke .callvirt members.stop).depthAfter 1 = 0 := by
    rw [Instruction.depthAfter_callvirt, callable.stop.stackArguments, callable.stop.isVoid]
    rfl
  refine .straight stops empty ?_ ?_
  · simp only [Instruction.peakDepth, Instruction.depthAfter_loadSlot, stopped]
    exact room
  · intro next after behind waits few
    simp only [Instruction.finalDepth, Instruction.depthAfter_loadSlot, stopped] at few
    rw [position] at behind
    exact goesOn next after behind waits few

theorem staysWithin_exit
    (position : frame.position = 5 + code.length + addedIn (method.returnSlot? body) code + 3)
    (empty : frame.stack = []) (room : 1 ≤ depth) :
    (measureRoutine method woven body first code regions).StaysWithin host depth frame world := by
  have fetches : ∀ offset instruction, (exitHead (method.returnSlot? body) ::
      exitTail (method.returnSlot? body))[offset]? = some instruction →
      ∃ id, (measureRoutine method woven body first code regions).fetch?
        (frame.position + offset) = some (id, instruction) := by
    intro offset instruction found
    obtain ⟨id, exits⟩ := exists_getElem?_exit ⟨body.arena.size + 6⟩
      (body.arena.size + 7 + addedIn (method.returnSlot? body) code + 2) found
    have behind : frame.position + offset =
        5 + code.length + addedIn (method.returnSlot? body) code + (offset + 3) := by omega
    rw [behind]
    exact ⟨id, (isMeasured.fetch?_stop _ _).trans exits⟩
  have unguarded := isMeasured.unguarded_stop has 3
  rw [← position] at unguarded
  exact .exit fetches unguarded empty room

/-- From the leave in place of a return that no handler waits behind. -/
theorem staysWithin_leave (callable : members.AreCallable) {position offset : Nat}
    {placed : Placed} {leaveId : InstrId}
    (outside : ∀ region ∈ regions, region.clause.isCatch = false →
      region.guarded.contains position = false)
    (found : code[position]? = some placed) (isRet : isReturn placed = true)
    (inside : offset ≤ perReturn (method.returnSlot? body))
    (stands : frame.position = measurePlace (method.returnSlot? body) code position + offset)
    (fetched : (measureRoutine method woven body first code regions).fetch? frame.position =
      some (leaveId, .leaveTo ⟨body.arena.size + 6⟩))
    (small : frame.stack.length ≤ depth) (room : 1 ≤ depth) :
    (measureRoutine method woven body first code regions).StaysWithin host depth frame world := by
  have exit : (measureRoutine method woven body first code regions).body.position?
      ⟨body.arena.size + 6⟩ =
        some (5 + code.length + addedIn (method.returnSlot? body) code + 3) :=
    isMeasured.surrounds.placed.handlerEnd
  refine .step fetched (Routine.step_leaveTo exit) small ?_
  rw [leave_running_of_outside outside found isRet inside stands]
  refine isMeasured.staysWithin_stop has callable rfl (Nat.le_refl 0) room ?_
  intro next after behind waits empty
  have ends := isMeasured.fetch?_stop
    (measureRoutine method woven body first code regions).regions 2
  rw [← behind] at ends
  refine .step ends (Routine.step_endfinally_leave waits) (empty.trans (Nat.zero_le depth)) ?_
  exact isMeasured.staysWithin_exit has rfl rfl room

/-- From what stands in place of a return that no handler waits behind. -/
theorem staysWithin_at_ret (callable : members.AreCallable) {last : Frame} {placed : Placed}
    (outside : ∀ region ∈ regions, region.clause.isCatch = false →
      region.guarded.contains last.position = false)
    (found : code[last.position]? = some placed) (isRet : isReturn placed = true)
    (small : last.stack.length ≤ depth) (room : 1 ≤ depth) :
    (measureRoutine method woven body first code regions).StaysWithin host depth
      (running last method body code object) world := by
  cases returnSlot : method.returnSlot? body with
  | none =>
      have leaves : (measureRoutine method woven body first code regions).fetch?
          (measurePlace (method.returnSlot? body) code last.position) =
            some (placed.1, .leaveTo ⟨body.arena.size + 6⟩) := by
        rw [isMeasured.fetch?_code, returnSlot]
        exact getElem?_measureCode_left found isRet
      exact isMeasured.staysWithin_leave has callable outside found isRet (Nat.zero_le _)
        (Nat.add_zero _).symm leaves small room
  | some slot =>
      have stores : (measureRoutine method woven body first code regions).fetch?
          (measurePlace (method.returnSlot? body) code last.position) =
            some (placed.1, .storeSlot slot) := by
        rw [isMeasured.fetch?_code, returnSlot]
        exact (getElem?_measureCode_stored found isRet).1
      have leaves : ∃ leaveId, (measureRoutine method woven body first code regions).fetch?
          (measurePlace (method.returnSlot? body) code last.position + 1) =
            some (leaveId, .leaveTo ⟨body.arena.size + 6⟩) := by
        rw [isMeasured.fetch?_code, returnSlot]
        exact ⟨_, (getElem?_measureCode_stored found isRet).2⟩
      obtain ⟨leaveId, leaves⟩ := leaves
      have one : 1 ≤ perReturn (method.returnSlot? body) := by
        rw [returnSlot]
        exact Nat.le_refl 1
      refine .intro stores small ?_
      intro next after stepped
      have advances : Frame.Advances (running last method body code object)
          ((Instruction.storeSlot slot).depthAfter last.stack.length)
          ((measureRoutine method woven body first code regions).compute (host.isInstance world)
            (running last method body code object) placed.1 (.storeSlot slot)) :=
        Routine.advances_compute rfl
      obtain ⟨stands, _, fewer⟩ := advances next (congrArg Prod.fst stepped)
      have stands : next.position =
          measurePlace (method.returnSlot? body) code last.position + 1 := stands
      rw [← stands] at leaves
      exact isMeasured.staysWithin_leave has callable outside found isRet one stands leaves
        (fewer.trans ((Nat.sub_le _ _).trans small)) room

/-- From where the finally handler is entered with an exception that leaves the body. -/
theorem staysWithin_of_unwind (callable : members.AreCallable) {last entered : Frame}
    {isInstance : Value → TypeExpr → Bool} {thrown : Value} {origin : Nat}
    (inside : origin < body.length)
    (unwound : (running last method body code object).unwind
      (measureRoutine method woven body first code regions).regions isInstance thrown
      (measurePlace (method.returnSlot? body) code origin) regions.length = .goOn entered)
    (room : 1 ≤ depth) :
    (measureRoutine method woven body first code regions).StaysWithin host depth entered
      world := by
  rw [isMeasured.unwind_running inside] at unwound
  cases unwound
  refine isMeasured.staysWithin_stop has callable rfl (Nat.le_refl 0) room ?_
  intro next after behind waits empty
  have ends := isMeasured.fetch?_stop
    (measureRoutine method woven body first code regions).regions 2
  rw [← behind] at ends
  exact .finish ends (Routine.step_endfinally_unwind waits) (empty.trans (Nat.zero_le depth))

end Behind

/-- The code in front of the body loads one value at a time. -/
theorem staysWithin_start (isMeasured : woven.IsMeasured body method profiler members first code)
    (callable : members.AreCallable) (valued : members.currentMethod.returns.isVoid = false)
    {receiver : Option Value} {arguments : List Value} {asked : List Contact}
    (prepares : host.Prepares members world (.ok object) asked after) (room : 1 ≤ depth)
    (within : (method.routineOf woven regions).StaysWithin host depth
      (prepared method woven body regions receiver arguments object [] 5) after) :
    (method.routineOf woven regions).StaysWithin host depth
      (method.startOf woven regions receiver arguments) world := by
  have empty := Nat.zero_le depth
  cases prepares with
  | started gives constructs starts =>
      refine .of_path (isMeasured.path_to_construct callable valued regions receiver arguments
        gives) empty ?_
      refine .of_path (isMeasured.path_to_store callable regions receiver arguments constructs)
        room ?_
      refine .of_path (isMeasured.path_to_load regions receiver arguments object _) room ?_
      refine .of_path (isMeasured.path_of_load regions receiver arguments object _) empty ?_
      exact .of_path (isMeasured.path_to_body callable starts) room within

/-- The measured method stays within its declared depth if the method does, which completes and does
not return where a handler waits. -/
theorem staysWithin (isMeasured : woven.IsMeasured body method profiler members first code)
    (has : body.HasRegions regions) (callable : members.AreCallable)
    (valued : members.currentMethod.returns.isVoid = false)
    {receiver : Option Value} {arguments : List Value} {asked : List Contact} {steps : Nat}
    {completion : Completion}
    (prepares : host.Prepares members world (.ok object) asked after)
    (completes : (method.routineOf body regions).Completes host
      (method.startOf body regions receiver arguments) after steps completion ended)
    (within : (method.routineOf body regions).StaysWithin host body.maxStack
      (method.startOf body regions receiver arguments) after)
    (outside : (method.routineOf body regions).ReturnsOutside host
      (method.startOf body regions receiver arguments) after) :
    (measureRoutine method woven body first code regions).StaysWithin host
      (max body.maxStack measureDepth)
      (method.startOf woven (body.measureRegions (method.returnSlot? body) first code regions)
        receiver arguments) world := by
  have room : 1 ≤ max body.maxStack measureDepth := le_trans (by decide) (Nat.le_max_right _ _)
  refine isMeasured.staysWithin_start callable valued prepares room ?_
  rw [isMeasured.prepared_eq regions]
  refine Routine.staysWithin_enclose (isMeasured.encloses regions) (Routine.fits_start _ _)
    completes within (Nat.le_max_left _ _) ?_ ?_
  · intro ops last between id instruction path fits small fetched isRet
    have found : code[last.position]? = some (id, instruction) :=
      (Routine.fetch?_eq_getElem? isMeasured.original _).symm.trans fetched
    have isReturns : isReturn (id, instruction) = true := by simp [isReturn, isRet]
    exact isMeasured.staysWithin_at_ret has callable
      (outside ops last between id instruction path fetched isRet) found isReturns
      (small.trans (Nat.le_max_left _ _)) room
  · intro last entered exception origin fits inside unwound
    exact isMeasured.staysWithin_of_unwind has callable inside unwound room

end Body.IsMeasured

/-! ## Woven methods -/

/-- An execution that completes is a run of the routine that does. -/
theorem Emulator.exists_completes_of_execute {emulator : Emulator} {receiver : Option Value}
    {arguments : List Value} {completion : Completion} (bodied : method.body = some body)
    (has : body.HasRegions regions)
    (executed : (emulator.execute host method receiver arguments world).1 = .ok completion) :
    ∃ steps ended, (method.routineOf body regions).Completes host
      (method.startOf body regions receiver arguments) world steps completion ended := by
  obtain ⟨ops, last, between, left, final, count, path, halts, _⟩ :=
    exists_path_of_execute bodied has (Prod.ext executed rfl)
  cases halts with
  | finished fetched stepped => exact ⟨_, _, path.completes (.finish fetched stepped)⟩

/-- If an execution of a method completes and stays within the depth of the stack that the body
declares, the execution of the guarded method stays within the depth that is declared there. So does
that of the measured method, if the method starts from what the code in front of it leaves behind and
does not return in a protected range whose handler would run when the range is left. -/
theorem staysWithinDeclared_of_wrap {emulator : Emulator} {method woven : Method}
    {binder : Binder} {receiver : Option Value} {arguments : List Value}
    {completion : Completion} :
    (∀ {exception handler : TypeExpr} {rethrow : Bool} {world : σ},
      (method.wrap (.guard exception handler rethrow) binder).1 = .ok woven →
      (emulator.execute host method receiver arguments world).1 = .ok completion →
      method.StaysWithinDeclared host receiver arguments world →
      woven.StaysWithinDeclared host receiver arguments world) ∧
    (∀ {profiler : TypeExpr} {members : ProfilerMembers} {object : Value} {asked : List Contact}
        {world started : σ},
      (method.wrap (.measure profiler) binder).1 = .ok woven →
      (binder.profilerMembers profiler).1 = .ok members →
      members.currentMethod.returns.isVoid = false →
      host.Prepares members world (.ok object) asked started →
      (emulator.execute host method receiver arguments started).1 = .ok completion →
      method.StaysWithinDeclared host receiver arguments started →
      method.ReturnsOutside host receiver arguments started →
      woven.StaysWithinDeclared host receiver arguments world) := by
  constructor
  · intro exception handler rethrow world wrapped executed within
    obtain ⟨body, regions, bodied, has, within⟩ := within
    obtain ⟨members, found, guarded, guards, rfl⟩ :=
      (Method.wrap_guard_eq_ok_iff bodied).mp wrapped
    obtain ⟨_, first, code, isGuarded⟩ := Body.isGuarded_of_guard guards
    obtain ⟨steps, ended, completes⟩ := Emulator.exists_completes_of_execute bodied has executed
    have handles := guardHandler_ne_nil method members (body.addedSlot method) rethrow
    refine ⟨guarded, _, rfl, (isGuarded.surrounds handles).hasRegions has, ?_⟩
    rw [Body.maxStack_guard guards]
    exact isGuarded.staysWithin has (Binder.areCallable_handlerMembers found) completes within
  · intro profiler members object asked world started wrapped found valued prepares executed within
      outside
    obtain ⟨body, regions, bodied, has, within⟩ := within
    obtain ⟨same, sameRegions, bodiedToo, hasToo, outside⟩ := outside
    obtain rfl : same = body := Option.some.inj (bodiedToo.symm.trans bodied)
    obtain rfl : sameRegions = regions := hasToo.unique has
    obtain ⟨found', sameFound, measured, measures, rfl⟩ :=
      (Method.wrap_measure_eq_ok_iff bodied).mp wrapped
    obtain rfl : found' = members := Except.ok.inj (sameFound.symm.trans found)
    obtain ⟨_, first, code, isMeasured⟩ := Body.isMeasured_of_measure measures
    obtain ⟨steps, ended, completes⟩ := Emulator.exists_completes_of_execute bodied has executed
    refine ⟨measured, _, rfl, isMeasured.surrounds.hasRegions has, ?_⟩
    rw [Body.maxStack_measure measures]
    exact isMeasured.staysWithin has (Binder.areCallable_profilerMembers found) valued prepares
      completes within outside

namespace Sample

/-- A static method that throws its argument if there is one. Its body declares the depth that it
needs. -/
def shallow : Method :=
  { Sample.method .void [] with
    body := some
      { Body.empty.appendAll [.loadArgument 0, ⟨.brfalse, .target ⟨4⟩⟩, .loadArgument 0,
          ⟨.throw, .none⟩, ⟨.ret, .none⟩] with maxStack := 1 } }

/-- A static method that returns from a protected range. The finally handler, which does not run for
it, needs more than the body declares. -/
def skipping : Method :=
  { Sample.method .void [] with
    body := some
      { Body.empty.appendAll [⟨.ret, .none⟩, ⟨.ldnull, .none⟩, ⟨.ldnull, .none⟩, ⟨.ldnull, .none⟩,
          ⟨.pop, .none⟩, ⟨.pop, .none⟩, ⟨.pop, .none⟩, ⟨.endfinally, .none⟩, ⟨.ret, .none⟩] with
        clauses := [.finishing ⟨0⟩ ⟨1⟩ ⟨8⟩]
        maxStack := 2 } }

end Sample

/-- The handler reports the argument that is thrown, and the profiler is stopped. -/
theorem staysWithinDeclared_of_wrap_shallow :
    ∃ guarded measured : Method,
      (Sample.shallow.wrap (.guard Sample.exceptionType Sample.monitorType false)
        Sample.binder).1 = .ok guarded ∧
      guarded.StaysWithinDeclared Sample.host none [.object 7 "E"] 0 ∧
      (Sample.shallow.wrap (.measure Sample.monitorType) Sample.binder).1 = .ok measured ∧
      measured.StaysWithinDeclared Sample.host none [.object 7 "E"] 0 := by
  have guards : (Sample.shallow.wrap (.guard Sample.exceptionType Sample.monitorType false)
      Sample.binder).1.toOption.any Method.hasBody = true := by decide +kernel
  have measures : (Sample.shallow.wrap (.measure Sample.monitorType)
      Sample.binder).1.toOption.any Method.hasBody = true := by decide +kernel
  have resolves : (Sample.binder.profilerMembers Sample.monitorType).1.toOption.any
      (fun members => !members.currentMethod.returns.isVoid && members.start.returns.isVoid) =
        true := by decide +kernel
  obtain ⟨guarded, guardWrapped, _⟩ := exists_eq_ok_of_any guards
  obtain ⟨measured, measureWrapped, _⟩ := exists_eq_ok_of_any measures
  obtain ⟨members, found, shape⟩ := exists_eq_ok_of_any resolves
  rw [Bool.and_eq_true, Bool.not_eq_true'] at shape
  have within : ∀ world, Sample.shallow.StaysWithinDeclared Sample.host none [.object 7 "E"]
      world := fun world => (Method.staysWithinDeclared_iff_of_keepsDeclared?
        (by rfl : Sample.shallow.keepsDeclared? Sample.host 5 none [.object 7 "E"] world =
          some true)).mpr rfl
  have outside : Sample.shallow.ReturnsOutside Sample.host none [.object 7 "E"] 2 :=
    ⟨_, [], rfl, ⟨rfl, nofun⟩, fun _ _ _ _ _ _ _ _ => nofun⟩
  have gives : Sample.host.call members.currentMethod none [] 0 =
      (.ok (.returned (some (.object 0 members.currentMethod.returns.text))), 1) := by
    simp [Sample.host, shape.1]
  have starts : Sample.host.call members.start
      (some (.object 1 members.construct.declaring.text)) [] 2 = (.ok (.returned none), 2) := by
    simp [Sample.host, shape.2]
  have executed : ∀ world, (({} : Emulator).execute Sample.host Sample.shallow none
      [.object 7 "E"] world).1 = .ok (.threw (.object 7 "E")) := fun _ => rfl
  exact ⟨guarded, measured, guardWrapped,
    staysWithinDeclared_of_wrap.1 guardWrapped (executed 0) (within 0), measureWrapped,
    staysWithinDeclared_of_wrap.2 measureWrapped found shape.1 (.started gives rfl starts)
      (executed 2) (within 2) outside⟩

/-- Where the return stood, the measured method leaves for the exit by way of the finally handler. -/
theorem not_staysWithinDeclared_of_skipped_handler :
    ∃ measured members object asked,
      (Sample.skipping.wrap (.measure Sample.monitorType) Sample.binder).1 = .ok measured ∧
      (Sample.binder.profilerMembers Sample.monitorType).1 = .ok members ∧
      members.currentMethod.returns.isVoid = false ∧
      Sample.host.Prepares members 0 (.ok object) asked 2 ∧
      (({} : Emulator).execute Sample.host Sample.skipping none [] 2).1 = .ok (.returned none) ∧
      Sample.skipping.StaysWithinDeclared Sample.host none [] 2 ∧
      ¬ measured.StaysWithinDeclared Sample.host none [] 0 := by
  have measures : (Sample.skipping.wrap (.measure Sample.monitorType)
      Sample.binder).1.toOption.any (fun measured =>
        measured.keepsDeclared? Sample.host 30 none [] 0 == some false) = true := by
    decide +kernel
  have resolves : (Sample.binder.profilerMembers Sample.monitorType).1.toOption.any
      (fun members => !members.currentMethod.returns.isVoid && members.start.returns.isVoid) =
        true := by decide +kernel
  obtain ⟨measured, wrapped, exceeds⟩ := exists_eq_ok_of_any measures
  obtain ⟨members, found, shape⟩ := exists_eq_ok_of_any resolves
  rw [Bool.and_eq_true, Bool.not_eq_true'] at shape
  have gives : Sample.host.call members.currentMethod none [] 0 =
      (.ok (.returned (some (.object 0 members.currentMethod.returns.text))), 1) := by
    simp [Sample.host, shape.1]
  have starts : Sample.host.call members.start
      (some (.object 1 members.construct.declaring.text)) [] 2 = (.ok (.returned none), 2) := by
    simp [Sample.host, shape.2]
  have within : Sample.skipping.StaysWithinDeclared Sample.host none [] 2 :=
    (Method.staysWithinDeclared_iff_of_keepsDeclared?
      (by rfl : Sample.skipping.keepsDeclared? Sample.host 1 none [] 2 = some true)).mpr rfl
  have without : ¬ measured.StaysWithinDeclared Sample.host none [] 0 := by
    rw [Method.staysWithinDeclared_iff_of_keepsDeclared? (beq_iff_eq.mp exceeds)]
    exact Bool.false_ne_true
  exact ⟨measured, members, _, _, wrapped, found, shape.1, .started gives rfl starts, rfl, within,
    without⟩

end Splice
