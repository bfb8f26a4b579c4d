import Splice.Proofs.Emulation.Completion
import Splice.Proofs.Weaving.Transparency

/-!
# Handled exceptions

An exception of the guarded kind that leaves the body of a guarded method enters the handler,
however many handlers of the body it has passed. The handler reports it once, and the method then
returns a default or throws the exception again.
-/

namespace Splice

variable {σ : Type} {host : Host σ} {members : HandlerMembers} {thrown told : Value}
variable {normal completion : Completion} {world ended : σ} {asked : List Contact}

/-- What the handler asks of a host, and how it completes: as it normally does, or with the
exception of the first call that throws one. -/
inductive Host.Reports (host : Host σ) (members : HandlerMembers) (thrown told : Value)
    (normal : Completion) (world : σ) : Completion → List Contact → σ → Prop where
  | normal {object current : Value} {returned : Option Value} {constructed named handled : σ} :
      host.construct members.construct [] world = (.ok (.returned (some object)), constructed) →
      host.call members.currentMethod none [] constructed =
        (.ok (.returned (some current)), named) →
      host.call members.handle (some object) [thrown, told, current] named =
        (.ok (.returned returned), handled) →
      Reports host members thrown told normal world normal
        [.construct members.construct [], .call members.currentMethod none [],
          .call members.handle (some object) [thrown, told, current]] handled
  | constructThrows {second : Value} {failed : σ} :
      host.construct members.construct [] world = (.ok (.threw second), failed) →
      Reports host members thrown told normal world (.threw second)
        [.construct members.construct []] failed
  | currentMethodThrows {object second : Value} {constructed failed : σ} :
      host.construct members.construct [] world = (.ok (.returned (some object)), constructed) →
      host.call members.currentMethod none [] constructed = (.ok (.threw second), failed) →
      Reports host members thrown told normal world (.threw second)
        [.construct members.construct [], .call members.currentMethod none []] failed
  | handleThrows {object current second : Value} {constructed named failed : σ} :
      host.construct members.construct [] world = (.ok (.returned (some object)), constructed) →
      host.call members.currentMethod none [] constructed =
        (.ok (.returned (some current)), named) →
      host.call members.handle (some object) [thrown, told, current] named =
        (.ok (.threw second), failed) →
      Reports host members thrown told normal world (.threw second)
        [.construct members.construct [], .call members.currentMethod none [],
          .call members.handle (some object) [thrown, told, current]] failed

/-- The instance that a handler is told: none in a static method, else the receiver. -/
def Method.Tells (method : Method) (receiver : Option Value) (told : Value) : Prop :=
  if method.isStatic then told = .null else receiver = some told

/-- How a guarded method completes once its handler has reported an exception. -/
def Method.afterReport (method : Method) (rethrow : Bool) (thrown : Value) : Completion :=
  if rethrow then .threw thrown
  else .returned (if method.isVoid then none else some (Value.defaultFor method.returns))

namespace Body.IsGuarded

variable {body guarded : Body} {method : Method} {exception : TypeExpr} {rethrow : Bool}
variable {first : InstrId} {code : List Placed} {regions : List Region}
variable {handler : List Instruction}

/-- No region of a guarded body protects the added code. -/
theorem unguarded_added (isGuarded : guarded.IsGuarded body method exception handler first code)
    (handles : handler ≠ []) (has : body.HasRegions regions) (position : Nat) :
    ∀ region ∈ body.guardRegions exception handler first regions,
      region.guarded.contains (body.length + position) = false :=
  (isGuarded.surrounds handles).unguarded_behind has position

/-- Nothing is current outside of the handlers. -/
theorem find?_current_eq_none {regions : List Region} {caught : List (Option Value)}
    {position : Nat} (outside : ∀ region ∈ regions, region.handler.contains position = false) :
    ((regions.zip caught).find? fun (region, _) =>
      region.clause.isCatch && region.handler.contains position) = none := by
  rw [List.find?_eq_none]
  intro entry member
  simp [outside entry.1 (List.of_mem_zip member).1]

/-- The exception that is current in the added handler is the one that entered it. -/
theorem currentException?_added
    (isGuarded : guarded.IsGuarded body method exception handler first code)
    (handles : handler ≠ []) (has : body.HasRegions regions) {frame : Frame} {offset : Nat}
    {caught : List (Option Value)} (inside : offset < handler.length)
    (position : frame.position = body.length + offset)
    (entered : frame.caught = caught ++ [some thrown]) (length : caught.length = regions.length) :
    frame.currentException? (body.guardRegions exception handler first regions) =
      some thrown := by
  have outside : ∀ region ∈ regions.map (·.shift id),
      region.handler.contains frame.position = false := by
    intro region member
    obtain ⟨own, owned, rfl⟩ := List.mem_map.mp member
    have within := (isGuarded.surrounds handles).within_guarded has owned
      (List.mem_cons_of_mem _ List.mem_cons_self :
        (own.shift id).handler ∈ (own.shift id).ranges)
    have stops : (own.shift id).handler.stop < body.length := within.2
    simp only [Range.contains, position, Bool.and_eq_false_iff, decide_eq_false_iff_not]
    omega
  have here : (body.guardRegion exception handler first).clause.isCatch &&
      (body.guardRegion exception handler first).handler.contains frame.position := by
    simp only [guardRegion, Clause.guarding, Clause.isCatch, Range.contains, position,
      beq_self_eq_true, Bool.true_and, Bool.and_eq_true, decide_eq_true_eq]
    omega
  rw [Frame.currentException?, guardRegions, entered, List.zip_append (by simp [length]),
    List.find?_append, find?_current_eq_none outside, Option.none_or, List.zip_cons_cons,
    List.zip_nil_left, List.find?_singleton, if_pos here]

/-! ## The run of the handler -/

/-- The frame further on in the handler. -/
def working (frame : Frame) (body : Body) (method : Method) (thrown : Value) (stack : List Value)
    (offset : Nat) : Frame :=
  { frame with
    slots := frame.slots.setIfInBounds (body.addedSlot method) thrown
    stack := stack
    position := frame.position + offset }

/-- What a frame is like that has just entered the handler. -/
structure Entered (frame : Frame) (body : Body) (method : Method) (regions : List Region)
    (thrown told : Value) : Prop where
  stack : frame.stack = [thrown]
  position : frame.position = body.length
  caught : ∃ caught, frame.caught = caught ++ [some thrown] ∧ caught.length = regions.length
  room : body.addedSlot method < frame.slots.size
  zero : method.isVoid = false →
    frame.slots[body.slots.size]? = some (Value.defaultFor method.returns)
  tells : if method.isStatic then told = .null else frame.arguments[0]? = some told

section Handler

variable {frame : Frame} {log : List Contact} {object current : Value} {constructed named : σ}

/-- The routine of the guarded method. -/
abbrev guardRoutine (method : Method) (guarded body : Body) (exception : TypeExpr)
    (members : HandlerMembers) (rethrow : Bool) (first : InstrId) (regions : List Region) :
    Routine :=
  method.routineOf guarded (body.guardRegions exception
    (guardHandler method members (body.addedSlot method) rethrow) first regions)

variable (isGuarded : guarded.IsGuarded body method exception
  (guardHandler method members (body.addedSlot method) rethrow) first code)
  (entered : Entered frame body method regions thrown told)
include isGuarded entered

/-- The handler is fetched instruction by instruction. -/
theorem fetch?_working (stack : List Value) (offset : Nat) :
    (guardRoutine method guarded body exception members rethrow first regions).fetch?
        (working frame body method thrown stack offset).position =
      (guardCode body.arena.size (guardHandler method members (body.addedSlot method) rethrow)
        (method.returnSlot? body))[offset]? := by
  rw [working, entered.position]
  exact isGuarded.fetch?_added rfl offset

theorem path_store :
    (guardRoutine method guarded body exception members rethrow first regions).Path host frame
      world [.stloc] (working frame body method thrown [] 1) world := by
  have fetched : (guardRoutine method guarded body exception members rethrow first regions).fetch?
      frame.position = some (⟨body.arena.size⟩, .storeSlot (body.addedSlot method)) := by
    rw [entered.position]
    exact isGuarded.fetch?_added rfl 0
  exact .single fetched (Routine.step_storeSlot entered.stack entered.room)

theorem path_construct (callable : members.AreCallable)
    (constructs : host.construct members.construct [] world =
      (.ok (.returned (some object)), constructed)) :
    (guardRoutine method guarded body exception members rethrow first regions).Path host
      (working frame body method thrown [] 1) world [.newobj]
      (working frame body method thrown [object] 2) constructed :=
  .single (fetch?_working isGuarded entered [] 1)
    (Routine.step_construct rfl (congrArg List.length callable.construct) constructs nofun rfl)

omit isGuarded in
private theorem step_loadInstance {routine : Routine} {id : InstrId} (stack : List Value)
    (offset : Nat) :
    routine.step host (working frame body method thrown stack offset) id method.loadInstance world =
      (.ok (.goOn (working frame body method thrown (told :: stack) (offset + 1))), world) := by
  have tells := entered.tells
  simp only [Method.loadInstance]
  split at tells
  next isStatic =>
    rw [if_pos isStatic, tells]
    exact Routine.step_ldnull
  next isInstance =>
    rw [if_neg isInstance]
    exact Routine.step_loadArgument tells

/-- The exception and the instance are loaded above the handler object. -/
theorem path_load :
    (guardRoutine method guarded body exception members rethrow first regions).Path host
      (working frame body method thrown [object] 2) world [.ldloc, method.loadInstance.op]
      (working frame body method thrown [told, thrown, object] 4) world := by
  have stored : (working frame body method thrown [object] 2).slots[body.addedSlot method]? =
      some thrown := Array.getElem?_setIfInBounds_self_of_lt entered.room
  exact .step (fetch?_working isGuarded entered [object] 2) (Routine.step_loadSlot stored)
    (.single (fetch?_working isGuarded entered [thrown, object] 3)
      (step_loadInstance entered [thrown, object] 3))

theorem path_currentMethod (callable : members.AreCallable)
    (valued : members.currentMethod.returns.isVoid = false)
    (gives : host.call members.currentMethod none [] world =
      (.ok (.returned (some current)), named)) :
    (guardRoutine method guarded body exception members rethrow first regions).Path host
      (working frame body method thrown [told, thrown, object] 4) world [.call]
      (working frame body method thrown [current, told, thrown, object] 5) named :=
  .single (fetch?_working isGuarded entered _ 4)
    (Routine.step_call_static callable.currentMethod.hasThis callable.currentMethod.parameters
      gives (Routine.afterCall_of_valued valued))

theorem path_handle (callable : members.AreCallable) {returned : Option Value}
    (handles : host.call members.handle (some object) [thrown, told, current] world =
      (.ok (.returned returned), ended)) :
    (guardRoutine method guarded body exception members rethrow first regions).Path host
      (working frame body method thrown [current, told, thrown, object] 5) world [.callvirt]
      (working frame body method thrown [] 6) ended := by
  have stack : (working frame body method thrown [current, told, thrown, object] 5).stack =
      [thrown, told, current].reverse ++ [object] := rfl
  exact .single (fetch?_working isGuarded entered _ 5)
    (Routine.step_call_instance callable.handle.hasThis stack callable.handle.parameters handles
      (Routine.afterCall_of_isVoid callable.handle.isVoid returned))

/-- What stands behind the call of the handler completes the run. -/
theorem completes_afterReport (has : body.HasRegions regions) :
    ∃ steps ≤ 3, (guardRoutine method guarded body exception members rethrow first
      regions).Completes host (working frame body method thrown [] 6) world steps
        (method.afterReport rethrow thrown) world := by
  have unguarded : ∀ region ∈ body.guardRegions exception
      (guardHandler method members (body.addedSlot method) rethrow) first regions,
      region.guarded.contains (working frame body method thrown [] 6).position = false := by
    rw [working, entered.position]
    exact isGuarded.unguarded_added (guardHandler_ne_nil _ _ _ _) has 6
  cases rethrow with
  | true =>
      obtain ⟨caught, entersWith, length⟩ := entered.caught
      have current : (working frame body method thrown [] 6).currentException?
          (body.guardRegions exception (guardHandler method members (body.addedSlot method) true)
            first regions) = some thrown :=
        isGuarded.currentException?_added (guardHandler_ne_nil _ _ _ _) has (Nat.lt_succ_self 6)
          (congrArg (· + 6) entered.position) entersWith length
      refine ⟨1, by decide, .finish (fetch?_working isGuarded entered [] 6) ?_⟩
      rw [Routine.step_rethrow current]
      exact congrArg (fun turn => (Except.ok turn, world)) (Routine.raise_of_unguarded unguarded)
  | false =>
      have exit : guarded.position? ⟨body.arena.size + 6⟩ = some (body.length + 7) :=
        (isGuarded.surrounds (guardHandler_ne_nil _ _ _ _)).placed.handlerEnd
      have left : (working frame body method thrown [] 6).leave (body.guardRegions exception
          (guardHandler method members (body.addedSlot method) false) first regions)
            (body.length + 7) = working frame body method thrown [] 7 := by
        rw [Routine.leave_of_unguarded unguarded, ← entered.position]
        rfl
      have leaves : ∀ id, (guardRoutine method guarded body exception members false first
          regions).step host (working frame body method thrown [] 6) id
            (.leaveTo ⟨body.arena.size + 6⟩) world =
          (.ok (.goOn (working frame body method thrown [] 7)), world) := by
        intro id
        rw [Routine.step_leaveTo exit]
        exact congrArg (fun frame => (Except.ok (Turn.goOn frame), world)) left
      have fetch := fetch?_working isGuarded entered
      cases isVoid : method.isVoid with
      | true =>
          have noSlot : method.returnSlot? body = none := if_pos isVoid
          rw [noSlot] at fetch
          refine ⟨2, by decide, .step (fetch [] 6) (leaves _) (.finish (fetch [] 7) ?_)⟩
          rw [exitHead, Routine.step_ret_void isVoid, Method.afterReport, isVoid]
          rfl
      | false =>
          have slot : method.returnSlot? body = some body.slots.size := if_neg (by simp [isVoid])
          rw [slot] at fetch
          have zero : (working frame body method thrown [] 7).slots[body.slots.size]? =
              some (Value.defaultFor method.returns) := by
            have different : body.addedSlot method ≠ body.slots.size := by
              simp [addedSlot, Method.returnTypes, isVoid]
            rw [working, Array.getElem?_setIfInBounds_ne different]
            exact entered.zero isVoid
          refine ⟨3, by decide, .step (fetch [] 6) (leaves _) (.step (fetch [] 7)
            (Routine.step_loadSlot zero) (.finish (fetch _ 8) ?_))⟩
          rw [Routine.step_ret_value isVoid rfl, Method.afterReport, isVoid]
          rfl

/-- An exception that one of the calls throws is not caught by the guarded method. -/
theorem raise_working (has : body.HasRegions regions) (stack : List Value) (offset : Nat)
    (isInstance : Value → TypeExpr → Bool) (second : Value) :
    (working frame body method thrown stack offset).raise
        (guardRoutine method guarded body exception members rethrow first regions).regions
        isInstance second = .finish (.threw second) := by
  apply Routine.raise_of_unguarded
  rw [working, entered.position]
  exact isGuarded.unguarded_added (guardHandler_ne_nil _ _ _ _) has offset

/-- The way to the call that gives the running method. -/
theorem path_to_currentMethod (callable : members.AreCallable)
    (constructs : host.construct members.construct [] world =
      (.ok (.returned (some object)), constructed)) :
    (guardRoutine method guarded body exception members rethrow first regions).Path host.logged
      frame (world, log) [.stloc, .newobj, .ldloc, method.loadInstance.op]
      (working frame body method thrown [told, thrown, object] 4)
      (constructed, log ++ [.construct members.construct []]) :=
  ((path_store isGuarded entered).trans (path_construct isGuarded entered callable
    (Host.logged_construct constructs log))).trans (path_load isGuarded entered)

/-- The way to the call of the handler. -/
theorem path_to_handle (callable : members.AreCallable)
    (valued : members.currentMethod.returns.isVoid = false)
    (constructs : host.construct members.construct [] world =
      (.ok (.returned (some object)), constructed))
    (gives : host.call members.currentMethod none [] constructed =
      (.ok (.returned (some current)), named)) :
    (guardRoutine method guarded body exception members rethrow first regions).Path host.logged
      frame (world, log) [.stloc, .newobj, .ldloc, method.loadInstance.op, .call]
      (working frame body method thrown [current, told, thrown, object] 5)
      (named, log ++ [.construct members.construct [], .call members.currentMethod none []]) := by
  have path := (path_to_currentMethod isGuarded entered callable constructs).trans
    (path_currentMethod isGuarded entered callable valued
      (Host.logged_call gives (log ++ [.construct members.construct []])))
  rw [List.append_assoc log] at path
  exact path

/-- The handler reports the exception to the host and completes. -/
theorem completes_of_reports (callable : members.AreCallable)
    (valued : members.currentMethod.returns.isVoid = false) (has : body.HasRegions regions)
    (reports : host.Reports members thrown told (method.afterReport rethrow thrown) world
      completion asked ended) :
    ∃ steps ≤ 9, (guardRoutine method guarded body exception members rethrow first
      regions).Completes host.logged frame (world, log) steps completion (ended, log ++ asked) := by
  have raised := raise_working isGuarded entered has
  have fetch := fetch?_working isGuarded entered
  cases reports with
  | normal constructs gives handles =>
      have path := (path_to_handle isGuarded entered callable valued constructs gives).trans
        (path_handle isGuarded entered callable (Host.logged_call handles (log ++ _)))
      rw [List.append_assoc log] at path
      obtain ⟨steps, few, rest⟩ := completes_afterReport isGuarded entered has
      exact ⟨_, Nat.add_le_add_right few 6, path.completes rest⟩
  | constructThrows constructs =>
      exact ⟨2, by decide, (path_store isGuarded entered).completes (.finish (fetch [] 1)
        (Routine.step_construct rfl (congrArg List.length callable.construct)
          (Host.logged_construct constructs log) nofun (raised [] 1 _ _)))⟩
  | currentMethodThrows constructs gives =>
      refine ⟨5, by decide, (path_to_currentMethod isGuarded entered callable constructs).completes
        (.finish (fetch _ 4) ?_)⟩
      rw [Routine.step_call_static callable.currentMethod.hasThis
        callable.currentMethod.parameters (Host.logged_call gives _) (raised _ 4 _ _),
        List.append_assoc log]
      rfl
  | @handleThrows object current _ _ _ _ constructs gives handles =>
      have stack : (working frame body method thrown [current, told, thrown, object] 5).stack =
          [thrown, told, current].reverse ++ [object] := rfl
      refine ⟨6, by decide, (path_to_handle isGuarded entered callable valued constructs
        gives).completes (.finish (fetch _ 5) ?_)⟩
      rw [Routine.step_call_instance callable.handle.hasThis stack callable.handle.parameters
        (Host.logged_call handles _) (raised [] 5 _ _), List.append_assoc log]
      rfl

end Handler

/-- An exception of the guarded kind that leaves the body enters the handler. -/
theorem entered_of_unwind {last : Frame} {values : Array Value} {origin : Nat}
    {isInstance : Value → TypeExpr → Bool}
    (fits : last.Fits (method.routineOf body regions) values) (inside : origin < body.length)
    (guards : isInstance thrown exception = true)
    (tells : if method.isStatic then told = .null else values[0]? = some told) :
    ∃ frame, (last.enclose id (method.spareSlots exception)).unwind
        (body.guardRegions exception handler first regions) isInstance thrown origin
          regions.length = .goOn frame ∧
      Entered frame body method regions thrown told := by
  have length : (regions.map (·.shift id)).length = regions.length := List.length_map ..
  have intercepted : (body.guardRegion exception handler first).intercepts (isInstance thrown)
      origin = true := by
    simp [Region.intercepts, guardRegion, Clause.guarding, Range.contains, inside, guards]
  have slots : last.slots.size = body.slots.size := fits.slots
  have spares : (method.spareSlots exception).size = method.returnTypes.length + 1 := by
    simp [Method.spareSlots]
  have unwound : (last.enclose id (method.spareSlots exception)).unwind
      (body.guardRegions exception handler first regions) isInstance thrown origin regions.length =
      .goOn { last.enclose id (method.spareSlots exception) with
        stack := [thrown]
        caught := (last.caught ++ [none]).set regions.length (some thrown)
        position := body.length } := by
    rw [guardRegions, ← length, Frame.unwind_last, intercepted, if_pos rfl]
    exact if_pos rfl
  refine ⟨_, unwound, rfl, rfl, ⟨last.caught, ?_, fits.caught⟩, ?_, ?_, ?_⟩
  · have caught : last.caught.length = regions.length := fits.caught
    simp [← caught]
  · simp only [Frame.enclose, addedSlot, Array.size_append, slots, spares]
    omega
  · intro isVoid
    simp [Frame.enclose, Method.spareSlots, Method.returnTypes, isVoid, ← slots]
  · rw [← fits.arguments] at tells
    exact tells

end Body.IsGuarded

/-- When an exception of the guarded kind leaves the body of a guarded method, the method asks of
the host what the body did and then what the handler does, and completes as the handler does. -/
theorem completes_guarded_of_reports {emulator roomy : Emulator} {method woven : Method}
    {binder : Binder} {exception handlerType : TypeExpr} {rethrow : Bool}
    {receiver : Option Value} {arguments : List Value} {steps : Nat} {calls : List Contact}
    {final : σ}
    (wrapped : (method.wrap (.guard exception handlerType rethrow) binder).1 = .ok woven)
    (found : (binder.handlerMembers handlerType).1 = .ok members)
    (valued : members.currentMethod.returns.isVoid = false) (tells : method.Tells receiver told)
    (threw : emulator.Completes host method receiver arguments world (.threw thrown) steps calls
      ended)
    (guards : host.isInstance ended thrown exception = true)
    (reports : host.Reports members thrown told (method.afterReport rethrow thrown) ended
      completion asked final)
    (enough : steps + 9 ≤ roomy.maxSteps) :
    ∃ total, roomy.Completes host woven receiver arguments world completion total (calls ++ asked)
      final := by
  cases bodied : method.body with
  | none =>
      have result := threw.result
      simp [Emulator.execute, bodied] at result
  | some body =>
      obtain ⟨same, sameFound, guarded, guardsBody, rfl⟩ :=
        (Method.wrap_guard_eq_ok_iff bodied).mp wrapped
      obtain rfl : same = members := Except.ok.inj (sameFound.symm.trans found)
      obtain ⟨_, first, code, isGuarded⟩ := Body.isGuarded_of_guard guardsBody
      obtain ⟨regions, has⟩ := threw.hasRegions bodied
      obtain ⟨_, throws⟩ := (Emulator.completes_iff bodied has []).mp threw
      have handles := guardHandler_ne_nil method same (body.addedSlot method) rethrow
      have encloses := isGuarded.encloses handles regions
      obtain ⟨last, origin, fits, inside, continues⟩ :=
        Routine.completes_of_threw encloses (Routine.fits_start _ _) throws
      have tellsFrame : if method.isStatic then told = .null
          else (receiver.toList ++ arguments).toArray[0]? = some told := by
        simp only [Method.Tells] at tells
        split at tells
        next isStatic => rwa [if_pos isStatic]
        next isInstance =>
          rw [if_neg isInstance, tells]
          rfl
      obtain ⟨frame, unwound, entered⟩ :=
        Body.IsGuarded.entered_of_unwind fits inside guards tellsFrame
      obtain ⟨more, few, completes⟩ := Body.IsGuarded.completes_of_reports isGuarded entered
        (Binder.areCallable_handlerMembers found) valued has reports
      have whole := continues unwound completes
      rw [← Method.startOf, ← isGuarded.startOf_eq] at whole
      refine ⟨more + steps, (Emulator.completes_iff rfl
        ((isGuarded.surrounds handles).hasRegions has) []).mpr ⟨?_, whole⟩⟩
      exact Nat.le_trans (Nat.add_comm steps 9 ▸ Nat.add_le_add_right few steps) enough

/-- A static method that throws its argument, which the handler reports and throws again. -/
theorem completes_guarded_of_reports_throw :
    ∃ woven total calls, ((Sample.method .void [.loadArgument 0, ⟨.throw, .none⟩]).wrap
        (.guard Sample.exceptionType Sample.monitorType true) Sample.binder).1 = .ok woven ∧
      ({} : Emulator).Completes Sample.host woven none [.object 7 "E"] 0 (.threw (.object 7 "E"))
        total calls 2 ∧ calls.length = 3 := by
  have succeeds : ((Sample.method .void [.loadArgument 0, ⟨.throw, .none⟩]).wrap
      (.guard Sample.exceptionType Sample.monitorType true) Sample.binder).1.toOption.any
        Method.hasBody = true := by decide +kernel
  have resolves : (Sample.binder.handlerMembers Sample.monitorType).1.toOption.any
      (fun members => !members.currentMethod.returns.isVoid && members.handle.returns.isVoid) =
        true := by decide +kernel
  obtain ⟨woven, wrapped, _⟩ := exists_eq_ok_of_any succeeds
  obtain ⟨members, found, shape⟩ := exists_eq_ok_of_any resolves
  rw [Bool.and_eq_true, Bool.not_eq_true'] at shape
  have threw : ({} : Emulator).Completes Sample.host
      (Sample.method .void [.loadArgument 0, ⟨.throw, .none⟩]) none [.object 7 "E"] 0
      (.threw (.object 7 "E")) 2 [] 0 := ⟨rfl, rfl, rfl, rfl⟩
  have gives : Sample.host.call members.currentMethod none [] 1 =
      (.ok (.returned (some (.object 1 members.currentMethod.returns.text))), 2) := by
    simp [Sample.host, shape.1]
  have handles : Sample.host.call members.handle
      (some (.object 0 members.construct.declaring.text))
      [.object 7 "E", .null, .object 1 members.currentMethod.returns.text] 2 =
        (.ok (.returned none), 2) := by
    simp [Sample.host, shape.2]
  have reports : Sample.host.Reports members (.object 7 "E") .null
      (.threw (.object 7 "E")) 0 _ _ 2 :=
    .normal rfl gives handles
  have enough : 2 + 9 ≤ ({} : Emulator).maxSteps := by decide
  obtain ⟨total, completes⟩ := completes_guarded_of_reports wrapped found shape.1 rfl threw rfl
    reports enough
  exact ⟨woven, total, _, wrapped, completes, rfl⟩

end Splice
