import Splice.Proofs.Emulation.Completion
import Splice.Proofs.Weaving.Measured
import Splice.Proofs.Weaving.Members

/-!
# Bracketed runs

A measured method constructs and starts its profiler, does what its body does and stops the
profiler, whether the body returns or throws. A profiler that cannot be started ends the run before
the body is entered.
-/

namespace Splice

variable {σ : Type} {host : Host σ} {members : ProfilerMembers} {object : Value}
variable {world ended : σ} {asked : List Contact}

/-- What the code in front of a measured body asks of a host. It gives the profiler object, or the
exception of the first call that throws one. -/
inductive Host.Prepares (host : Host σ) (members : ProfilerMembers) (world : σ) :
    Except Value Value → List Contact → σ → Prop where
  | started {current object : Value} {returned : Option Value} {named constructed started : σ} :
      host.call members.currentMethod none [] world = (.ok (.returned (some current)), named) →
      host.construct members.construct [current] named =
        (.ok (.returned (some object)), constructed) →
      host.call members.start (some object) [] constructed = (.ok (.returned returned), started) →
      Prepares host members world (.ok object)
        [.call members.currentMethod none [], .construct members.construct [current],
          .call members.start (some object) []] started
  | currentMethodThrows {thrown : Value} {failed : σ} :
      host.call members.currentMethod none [] world = (.ok (.threw thrown), failed) →
      Prepares host members world (.error thrown) [.call members.currentMethod none []] failed
  | constructThrows {current thrown : Value} {named failed : σ} :
      host.call members.currentMethod none [] world = (.ok (.returned (some current)), named) →
      host.construct members.construct [current] named = (.ok (.threw thrown), failed) →
      Prepares host members world (.error thrown)
        [.call members.currentMethod none [], .construct members.construct [current]] failed
  | startThrows {current object thrown : Value} {named constructed failed : σ} :
      host.call members.currentMethod none [] world = (.ok (.returned (some current)), named) →
      host.construct members.construct [current] named =
        (.ok (.returned (some object)), constructed) →
      host.call members.start (some object) [] constructed = (.ok (.threw thrown), failed) →
      Prepares host members world (.error thrown)
        [.call members.currentMethod none [], .construct members.construct [current],
          .call members.start (some object) []] failed

/-- What the slots that measuring adds hold once the profiler is stored. -/
def Method.measureSlots (method : Method) (object : Value) : Array Value :=
  (method.returnTypes.map Value.defaultFor ++ [object]).toArray

namespace Body.IsMeasured

variable {body woven : Body} {method : Method} {profiler : TypeExpr} {first : InstrId}
variable {code : List Placed} {regions : List Region} {receiver : Option Value}
variable {arguments : List Value} {position : Nat}

/-- The code of a measured body is fetched from it. -/
theorem fetch?_code (isMeasured : woven.IsMeasured body method profiler members first code)
    (regions : List Region) (position : Nat) :
    (method.routineOf woven regions).fetch? position =
      (measureCode body.arena.size members (body.addedSlot method) (method.returnSlot? body)
        code)[position]? :=
  Routine.fetch?_eq_getElem? isMeasured.places position

/-- The routine of the measured method. -/
abbrev measureRoutine (method : Method) (woven body : Body) (first : InstrId) (code : List Placed)
    (regions : List Region) : Routine :=
  method.routineOf woven (body.measureRegions (method.returnSlot? body) first code regions)

theorem encloses (isMeasured : woven.IsMeasured body method profiler members first code)
    (regions : List Region) :
    (measureRoutine method woven body first code regions).Encloses
      (measurePlace (method.returnSlot? body) code)
      (body.measureRegion (method.returnSlot? body) first code)
      (method.routineOf body regions) := by
  apply isMeasured.surrounds.encloses
  intro position id instruction fetched notRet
  have found : code[position]? = some (id, instruction) :=
    (Routine.fetch?_eq_getElem? isMeasured.original position).symm.trans fetched
  have kept : isReturn (id, instruction) = false := by simpa [isReturn] using notRet
  exact ⟨(isMeasured.fetch?_code _ _).trans (getElem?_measureCode_kept found kept),
    measurePlace_succ_of_kept found kept⟩

/-! ## Before the body -/

/-- The code in front of the body is fetched instruction by instruction. -/
theorem fetch?_start (isMeasured : woven.IsMeasured body method profiler members first code)
    (regions : List Region) (position : Nat) (inside : position < 5) :
    (method.routineOf woven regions).fetch? position =
      (numbered body.arena.size (startCode members (body.addedSlot method)))[position]? := by
  rw [isMeasured.fetch?_code, measureCode, List.append_assoc]
  apply List.getElem?_append_left
  rw [length_numbered]
  exact inside

/-- The first frame of a measured method, with what is on the stack further on. -/
def preparing (method : Method) (woven : Body) (regions : List Region) (receiver : Option Value)
    (arguments : List Value) (stack : List Value) (position : Nat) : Frame :=
  { method.startOf woven regions receiver arguments with stack := stack, position := position }

/-- The frame further on, once the profiler is stored. -/
def prepared (method : Method) (woven body : Body) (regions : List Region)
    (receiver : Option Value) (arguments : List Value) (object : Value) (stack : List Value)
    (position : Nat) : Frame :=
  { preparing method woven regions receiver arguments stack position with
    slots := (woven.slots.map Value.defaultFor).setIfInBounds (body.addedSlot method) object }

section Start

variable (isMeasured : woven.IsMeasured body method profiler members first code)
include isMeasured

theorem addedSlot_lt : body.addedSlot method < (woven.slots.map Value.defaultFor).size := by
  simp [isMeasured.slots, addedSlot]

theorem path_to_construct (callable : members.AreCallable)
    (valued : members.currentMethod.returns.isVoid = false) (regions : List Region)
    (receiver : Option Value) (arguments : List Value) {current : Value} {named : σ}
    (gives : host.call members.currentMethod none [] world =
      (.ok (.returned (some current)), named)) :
    (method.routineOf woven regions).Path host
      (method.startOf woven regions receiver arguments) world [.call]
      (preparing method woven regions receiver arguments [current] 1) named := by
  have fetched : (method.routineOf woven regions).fetch?
      (method.startOf woven regions receiver arguments).position =
        some (⟨body.arena.size⟩, .invoke .call members.currentMethod) :=
    isMeasured.fetch?_start regions 0 (by decide)
  exact .single fetched (Routine.step_call_static callable.currentMethod.hasThis
    callable.currentMethod.parameters gives (Routine.afterCall_of_valued valued))

theorem path_to_store (callable : members.AreCallable) (regions : List Region)
    (receiver : Option Value) (arguments : List Value) {current : Value} {constructed : σ}
    (constructs : host.construct members.construct [current] world =
      (.ok (.returned (some object)), constructed)) :
    (method.routineOf woven regions).Path host
      (preparing method woven regions receiver arguments [current] 1) world [.newobj]
      (preparing method woven regions receiver arguments [object] 2) constructed := by
  have stack : (preparing method woven regions receiver arguments [current] 1).stack =
      [current].reverse ++ [] := rfl
  exact .single (isMeasured.fetch?_start regions 1 (by decide))
    (Routine.step_construct stack callable.construct constructs nofun rfl)

theorem path_to_load (regions : List Region) (receiver : Option Value) (arguments : List Value)
    (object : Value) (world : σ) :
    (method.routineOf woven regions).Path host
      (preparing method woven regions receiver arguments [object] 2) world [.stloc]
      (prepared method woven body regions receiver arguments object [] 3) world :=
  .single (isMeasured.fetch?_start regions 2 (by decide))
    (Routine.step_storeSlot rfl isMeasured.addedSlot_lt)

theorem path_of_load (regions : List Region) (receiver : Option Value) (arguments : List Value)
    (object : Value) (world : σ) :
    (method.routineOf woven regions).Path host
      (prepared method woven body regions receiver arguments object [] 3) world [.ldloc]
      (prepared method woven body regions receiver arguments object [object] 4) world := by
  have stored : (prepared method woven body regions receiver arguments object [] 3).slots[
      body.addedSlot method]? = some object :=
    Array.getElem?_setIfInBounds_self_of_lt isMeasured.addedSlot_lt
  exact .single (isMeasured.fetch?_start regions 3 (by decide)) (Routine.step_loadSlot stored)

theorem path_to_body (callable : members.AreCallable) {returned : Option Value} {started : σ}
    (starts : host.call members.start (some object) [] world =
      (.ok (.returned returned), started)) :
    (method.routineOf woven regions).Path host
      (prepared method woven body regions receiver arguments object [object] 4) world [.callvirt]
      (prepared method woven body regions receiver arguments object [] 5) started := by
  have stack : (prepared method woven body regions receiver arguments object [object] 4).stack =
      ([] : List Value).reverse ++ object :: [] := rfl
  have fetched : (method.routineOf woven regions).fetch?
      (prepared method woven body regions receiver arguments object [object] 4).position =
        some (⟨body.arena.size + 4⟩, .invoke .callvirt members.start) :=
    isMeasured.fetch?_start regions 4 (by decide)
  exact .single fetched (Routine.step_call_instance callable.start.hasThis stack
    callable.start.parameters starts (Routine.afterCall_of_isVoid callable.start.isVoid returned))

end Start

/-! ## Behind the body -/

/-- The frame of the measured method while the body runs. -/
abbrev running (frame : Frame) (method : Method) (body : Body) (code : List Placed)
    (object : Value) : Frame :=
  frame.enclose (measurePlace (method.returnSlot? body) code) (method.measureSlots object)

/-- The frame somewhere in the code behind the body. -/
def stopping (frame : Frame) (method : Method) (body : Body) (code : List Placed)
    (stack : List Value) (pending : List Resumption) (offset : Nat) : Frame :=
  { frame with
    stack := stack
    pending := pending
    position := 5 + code.length + addedIn (method.returnSlot? body) code + offset }

theorem stored_running {frame : Frame} {values : Array Value} (object : Value)
    (fits : frame.Fits (method.routineOf body regions) values) :
    (running frame method body code object).slots[body.addedSlot method]? = some object := by
  have slots : frame.slots.size = body.slots.size := fits.slots
  simp [Frame.enclose, addedSlot, Method.measureSlots, ← slots]

/-- The frame once the value of a return is stored. -/
def storing (frame : Frame) (body : Body) (value : Value) (below : List Value) : Frame :=
  { frame with
    slots := frame.slots.setIfInBounds body.slots.size value
    stack := below
    position := frame.position + 1 }

section Stop

variable (isMeasured : woven.IsMeasured body method profiler members first code)
include isMeasured

/-- In front of the body the frame is the first one of the body, with the profiler in its slot. -/
theorem prepared_eq (regions : List Region) (receiver : Option Value) (arguments : List Value)
    (object : Value) :
    prepared method woven body (body.measureRegions (method.returnSlot? body) first code regions)
        receiver arguments object [] 5 =
      running (method.startOf body regions receiver arguments) method body code object := by
  have slots : (woven.slots.map Value.defaultFor).setIfInBounds (body.addedSlot method) object =
      body.slots.map Value.defaultFor ++ method.measureSlots object := by
    rw [isMeasured.slots, addedSlot, Method.measureSlots]
    apply Array.ext'
    simp
  rw [prepared, slots]
  simp [preparing, Method.startOf, Method.routineOf, Routine.start, Frame.enclose, measureRegions,
    measurePlace, addedIn, Function.comp_def]

/-- The code behind the body is fetched instruction by instruction. -/
theorem fetch?_stop (regions : List Region) (offset : Nat) :
    (method.routineOf woven regions).fetch?
        (5 + code.length + addedIn (method.returnSlot? body) code + offset) =
      (measureTail body.arena.size
        (body.arena.size + 7 + addedIn (method.returnSlot? body) code) members
        (body.addedSlot method) (method.returnSlot? body))[offset]? := by
  rw [isMeasured.fetch?_code]
  exact getElem?_measureCode_tail offset

/-- The finally handler stops the profiler that is stored. -/
theorem path_stop (callable : members.AreCallable) (regions : List Region) {frame : Frame}
    (pending : List Resumption) {returned : Option Value}
    (stored : frame.slots[body.addedSlot method]? = some object)
    (stops : host.call members.stop (some object) [] world = (.ok (.returned returned), ended)) :
    (method.routineOf woven regions).Path host (stopping frame method body code [] pending 0) world
      [.ldloc, .callvirt] (stopping frame method body code [] pending 2) ended := by
  have holds : (stopping frame method body code [] pending 0).slots[body.addedSlot method]? =
      some object := stored
  have loaded : (stopping frame method body code [object] pending 1).stack =
      ([] : List Value).reverse ++ object :: [] := rfl
  have stopped : (method.routineOf woven regions).step host
      (stopping frame method body code [object] pending 1)
        ⟨body.arena.size + 7 + addedIn (method.returnSlot? body) code⟩
        (.invoke .callvirt members.stop) world =
      (.ok (.goOn (stopping frame method body code [] pending 2)), ended) :=
    Routine.step_call_instance callable.stop.hasThis loaded callable.stop.parameters stops
      (Routine.afterCall_of_isVoid callable.stop.isVoid returned)
  exact .step (isMeasured.fetch?_stop regions 0) (Routine.step_loadSlot holds)
    (.single (isMeasured.fetch?_stop regions 1) stopped)

/-- An exception that leaves the body enters the finally handler. -/
theorem unwind_running {frame : Frame} {isInstance : Value → TypeExpr → Bool} {thrown : Value}
    {origin : Nat} (inside : origin < body.length) (object : Value) :
    (running frame method body code object).unwind
        (measureRoutine method woven body first code regions).regions isInstance thrown
        (measurePlace (method.returnSlot? body) code origin) regions.length =
      .goOn (stopping (running frame method body code object) method body code []
        (.unwind thrown (measurePlace (method.returnSlot? body) code origin)
          (measureRoutine method woven body first code regions).regions.length ::
            (running frame method body code object).pending) 0) := by
  have intercepted : (body.measureRegion (method.returnSlot? body) first code).intercepts
      (isInstance thrown) (measurePlace (method.returnSlot? body) code origin) = true := by
    rw [Region.intercepts, isMeasured.surrounds.guards origin inside]
    rfl
  have length : (regions.map (·.shift (measurePlace (method.returnSlot? body) code))).length =
      regions.length := List.length_map ..
  have more : (measureRoutine method woven body first code regions).regions.length =
      regions.length + 1 := by simp [Method.routineOf, measureRegions]
  rw [more, ← length]
  exact Frame.unwind_last.trans (by rw [intercepted]; rfl)

/-- When the body throws, the profiler is stopped and the run ends with the exception. -/
theorem completes_of_threw (callable : members.AreCallable) {frame : Frame} {values : Array Value}
    {steps : Nat} {thrown : Value} {returned : Option Value} {final : σ}
    (fits : frame.Fits (method.routineOf body regions) values)
    (throws : (method.routineOf body regions).Completes host frame world steps (.threw thrown)
      ended)
    (stops : host.call members.stop (some object) [] ended = (.ok (.returned returned), final)) :
    (measureRoutine method woven body first code regions).Completes host
      (running frame method body code object) world (3 + steps) (.threw thrown) final := by
  obtain ⟨last, origin, fitsLast, inside, continues⟩ :=
    Routine.completes_of_threw (isMeasured.encloses regions) fits throws
  have stored : (running last method body code object).slots[body.addedSlot method]? =
      some object := stored_running object fitsLast
  have path := isMeasured.path_stop callable
    (measureRoutine method woven body first code regions).regions
    (.unwind thrown (measurePlace (method.returnSlot? body) code origin)
      (measureRoutine method woven body first code regions).regions.length ::
        (running last method body code object).pending) stored stops
  exact continues (isMeasured.unwind_running inside object) (path.completes
    (.finish (isMeasured.fetch?_stop _ 2) (Routine.step_endfinally_unwind rfl)))

omit isMeasured in
/-- In place of a return that no handler waits behind, the run leaves no range but that of the added
region. -/
theorem leave_running_of_outside {placed : Placed}
    (outside : ∀ region ∈ regions, region.clause.isCatch = false →
      region.guarded.contains position = false)
    (found : code[position]? = some placed) (isRet : isReturn placed = true)
    {offset : Nat} (inside : offset ≤ perReturn (method.returnSlot? body)) {frame : Frame}
    (stands : frame.position = measurePlace (method.returnSlot? body) code position + offset) :
    frame.leave (measureRoutine method woven body first code regions).regions
        (5 + code.length + addedIn (method.returnSlot? body) code + 3) =
      stopping frame method body code [] (.leave []
        (5 + code.length + addedIn (method.returnSlot? body) code + 3) :: frame.pending) 0 := by
  have others : (regions.map (·.shift (measurePlace (method.returnSlot? body) code))).filter
      (·.isLeft frame.position (5 + code.length + addedIn (method.returnSlot? body) code + 3)) =
        [] := by
    rw [List.filter_eq_nil_iff]
    intro region member
    obtain ⟨own, owned, rfl⟩ := List.mem_map.mp member
    cases isCatch : own.clause.isCatch with
    | true => simp [Region.isLeft, Region.shift, isCatch]
    | false =>
        have contains := contains_shift_measurePlace found isRet inside own.guarded
        simp only [Region.isLeft, Region.shift, stands, contains, outside own owned isCatch]
        simp
  have here : (body.measureRegion (method.returnSlot? body) first code).isLeft frame.position
      (5 + code.length + addedIn (method.returnSlot? body) code + 3) = true := by
    have inCode := (List.getElem?_eq_some_iff.mp found).1
    have protects : (body.measureRegion (method.returnSlot? body) first code).guarded.contains
        frame.position = true := by
      rw [guarded_measureRegion, stands, contains_shift_measurePlace found isRet inside]
      exact Bool.and_eq_true_iff.mpr ⟨rfl, decide_eq_true inCode⟩
    have leaves : (body.measureRegion (method.returnSlot? body) first code).guarded.contains
        (5 + code.length + addedIn (method.returnSlot? body) code + 3) = false :=
      Bool.and_eq_false_imp.mpr fun _ => decide_eq_false (Nat.not_lt.mpr (Nat.le_add_right _ 3))
    rw [Region.isLeft, protects, leaves]
    rfl
  have left : (body.measureRegions (method.returnSlot? body) first code regions).filter
      (·.isLeft frame.position (5 + code.length + addedIn (method.returnSlot? body) code + 3)) =
        [body.measureRegion (method.returnSlot? body) first code] := by
    rw [measureRegions, List.filter_append, others, List.filter_singleton, here]
    rfl
  exact congrArg (frame.runHandlers _) left

end Stop

end Body.IsMeasured

end Splice
