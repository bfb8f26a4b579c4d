import Mathlib.Order.Monotone.Basic
import Mathlib.Data.Nat.Basic
import Splice.Proofs.Code.WellFormed
import Splice.Proofs.Emulation.Path
import Splice.Proofs.Emulation.Turn

/-!
# Enclosed routines

One routine encloses another when it has the code of the other at places of its own, in the same
order, and one more region at the end of the table that protects all of that code. As long as the
inner routine runs, the outer one takes the same steps. Only an exception that leaves the inner
routine meets the additional region.
-/

namespace Splice

variable {place : Nat → Nat} {position : Nat}

/-! ## Moving positions -/

namespace Range

def shift (place : Nat → Nat) (range : Range) : Range :=
  ⟨place range.start, place range.stop⟩

@[simp] theorem contains_shift (mono : StrictMono place) (range : Range) (position : Nat) :
    (range.shift place).contains (place position) = range.contains position := by
  simp [shift, contains, mono.le_iff_le, mono.lt_iff_lt]

end Range

namespace Region

def shift (place : Nat → Nat) (region : Region) : Region where
  clause := region.clause
  guarded := region.guarded.shift place
  handler := region.handler.shift place

theorem intercepts_shift (mono : StrictMono place) (isInstance : TypeExpr → Bool) (origin : Nat)
    (region : Region) :
    (region.shift place).intercepts isInstance (place origin) =
      region.intercepts isInstance origin := by
  simp [intercepts, shift, mono]

theorem isLeft_shift (mono : StrictMono place) (source target : Nat) (region : Region) :
    (region.shift place).isLeft (place source) (place target) = region.isLeft source target := by
  simp [isLeft, shift, mono]

end Region

def Resumption.shift (place : Nat → Nat) : Resumption → Resumption
  | .leave rest target => .leave (rest.map (·.shift place)) (place target)
  | .unwind exception origin next => .unwind exception (place origin) next

/-- The frame of the outer routine: spare slots follow those of the inner one, and the additional
region has caught nothing. -/
def Frame.enclose (place : Nat → Nat) (spare : Array Value) (frame : Frame) : Frame where
  arguments := frame.arguments
  slots := frame.slots ++ spare
  stack := frame.stack
  pending := frame.pending.map (·.shift place)
  caught := frame.caught ++ [none]
  position := place frame.position

/-! ## Frames of a routine -/

/-- A search for a handler goes on from a position of the code and within the table. -/
def Resumption.Fits (routine : Routine) : Resumption → Prop
  | .leave _ _ => True
  | .unwind _ origin next => origin < routine.body.length ∧ next ≤ routine.regions.length

structure Frame.Fits (routine : Routine) (arguments : Array Value) (frame : Frame) : Prop where
  arguments : frame.arguments = arguments
  slots : frame.slots.size = routine.body.slots.size
  caught : frame.caught.length = routine.regions.length
  pending : ∀ resumption ∈ frame.pending, resumption.Fits routine

theorem Routine.fits_start (routine : Routine) (arguments : List Value) :
    (routine.start arguments).Fits routine arguments.toArray where
  arguments := rfl
  slots := by simp [start]
  caught := by simp [start]
  pending := nofun

namespace Routine

/-- The outer routine has the code of the inner one, but for its returns, and one more region. -/
structure Encloses (outer : Routine) (place : Nat → Nat) (extra : Region) (inner : Routine) :
    Prop where
  isVoid : outer.isVoid = inner.isVoid
  regions : outer.regions = inner.regions.map (·.shift place) ++ [extra]
  mono : StrictMono place
  position : ∀ id position, inner.body.position? id = some position →
    position < inner.body.length ∧ outer.body.position? id = some (place position)
  fetch : ∀ position id instruction, inner.fetch? position = some (id, instruction) →
    instruction.op ≠ .ret → outer.fetch? (place position) = some (id, instruction) ∧
      place (position + 1) = place position + 1
  guards : ∀ position < inner.body.length, extra.guarded.contains (place position)
  spares : ∀ position < inner.body.length, extra.handler.contains (place position) = false

/-- The turn of the outer routine for a turn of the inner one. An exception that leaves the inner
routine goes on to the additional region. -/
inductive Follows (outer : Routine) (place : Nat → Nat) (spare : Array Value) (inner : Routine)
    (arguments : Array Value) (isInstance : Value → TypeExpr → Bool) : Turn → Turn → Prop where
  | goOn {frame : Frame} : frame.Fits inner arguments →
      Follows outer place spare inner arguments isInstance (.goOn frame)
        (.goOn (frame.enclose place spare))
  | returned (value : Option Value) :
      Follows outer place spare inner arguments isInstance (.finish (.returned value))
        (.finish (.returned value))
  | threw {frame : Frame} {exception : Value} {origin : Nat} : frame.Fits inner arguments →
      origin < inner.body.length →
      Follows outer place spare inner arguments isInstance (.finish (.threw exception))
        ((frame.enclose place spare).unwind outer.regions isInstance exception (place origin)
          inner.regions.length)

end Routine

/-! ## Operations on frames -/

namespace Frame

variable {spare : Array Value} {frame rest : Frame} {value : Value} {index count : Nat}

theorem pop_enclose (popped : frame.pop = .ok (value, rest)) :
    (frame.enclose place spare).pop = .ok (value, rest.enclose place spare) := by
  simp only [pop] at popped ⊢
  simp only [enclose]
  cases stack : frame.stack with
  | nil => simp [stack] at popped
  | cons top below =>
      simp only [stack, Except.ok.injEq, Prod.mk.injEq] at popped ⊢
      obtain ⟨rfl, rfl⟩ := popped
      exact ⟨rfl, rfl⟩

theorem popMany_enclose {values : List Value} (popped : frame.popMany count = .ok (values, rest)) :
    (frame.enclose place spare).popMany count = .ok (values, rest.enclose place spare) := by
  simp only [popMany] at popped ⊢
  split at popped
  · contradiction
  next enough =>
    simp only [Except.ok.injEq, Prod.mk.injEq] at popped
    obtain ⟨rfl, rfl⟩ := popped
    exact if_neg enough

theorem slotAt_enclose (read : frame.slotAt index = .ok value) :
    (frame.enclose place spare).slotAt index = .ok value := by
  simp only [slotAt] at read ⊢
  cases found : frame.slots[index]? with
  | none => simp [found] at read
  | some stored =>
      have inside := (Array.getElem?_eq_some_iff.mp found).1
      simp only [found, enclose, Array.getElem?_append_left inside] at read ⊢
      exact read

theorem store_enclose (stored : frame.store index value = .ok rest) :
    (frame.enclose place spare).store index value = .ok (rest.enclose place spare) := by
  simp only [store] at stored ⊢
  split at stored
  next inside =>
    simp only [Except.ok.injEq] at stored
    subst stored
    have wider : index < (frame.enclose place spare).slots.size := by
      simp only [enclose, Array.size_append]
      omega
    rw [if_pos wider]
    simp [enclose, Array.setIfInBounds_append_left, inside]
  next => contradiction

/-- A search that has come to the last region enters its handler or ends. -/
theorem unwind_last {regions : List Region} {last : Region}
    {isInstance : Value → TypeExpr → Bool} {exception : Value} {origin : Nat} :
    frame.unwind (regions ++ [last]) isInstance exception origin regions.length =
      if last.intercepts (isInstance exception) origin then
        if last.clause.isCatch then
          .goOn { frame with
            stack := [exception]
            caught := frame.caught.set regions.length (some exception)
            position := last.handler.start }
        else
          .goOn { frame with
            stack := []
            pending := .unwind exception origin (regions.length + 1) :: frame.pending
            position := last.handler.start }
      else .finish (.threw exception) := by
  have rest : (regions ++ [last]).zipIdx.drop regions.length = [(last, regions.length)] := by
    rw [List.zipIdx_append, List.drop_left' (by simp)]
    simp
  rw [unwind, rest, List.find?_singleton]
  by_cases intercepted : last.intercepts (isInstance exception) origin <;> simp [intercepted]

theorem advance_enclose (next : place (frame.position + 1) = place frame.position + 1) :
    (frame.enclose place spare).advance = frame.advance.enclose place spare := by
  simp [advance, goTo, enclose, next]

end Frame

namespace Routine

variable {inner outer : Routine} {extra : Region} {arguments spare : Array Value}
variable {isInstance : Value → TypeExpr → Bool} {frame rest : Frame} {exception : Value}

namespace Encloses

/-- A search of the outer table goes through the inner one first. -/
theorem find?_regions (encloses : outer.Encloses place extra inner) {next : Nat}
    (inTable : next ≤ inner.regions.length) (accepts : TypeExpr → Bool) (origin : Nat) :
    ((outer.regions.zipIdx.drop next).find? fun (region, _) =>
        region.intercepts accepts (place origin)) =
      (((inner.regions.zipIdx.drop next).find? fun (region, _) =>
        region.intercepts accepts origin).map fun (region, index) =>
          (region.shift place, index)).or
        ((outer.regions.zipIdx.drop inner.regions.length).find? fun (region, _) =>
          region.intercepts accepts (place origin)) := by
  have table : outer.regions.zipIdx =
      (inner.regions.zipIdx.map fun (region, index) => (region.shift place, index)) ++
        [(extra, inner.regions.length)] := by
    rw [encloses.regions, List.zipIdx_append, List.zipIdx_map, List.length_map, Nat.zero_add]
    rfl
  have first : (outer.regions.zipIdx.drop next) =
      ((inner.regions.zipIdx.drop next).map fun (region, index) => (region.shift place, index)) ++
        outer.regions.zipIdx.drop inner.regions.length := by
    rw [table, List.drop_append_of_le_length (by simpa using inTable), List.map_drop,
      List.drop_left' (by simp)]
  rw [first, List.find?_append, List.find?_map]
  congr 2
  apply congrArg (List.find? · _)
  funext region
  exact Region.intercepts_shift encloses.mono accepts origin region.1

theorem follows_unwind (encloses : outer.Encloses place extra inner)
    (fits : frame.Fits inner arguments) {origin next : Nat} (inside : origin < inner.body.length)
    (inTable : next ≤ inner.regions.length) :
    Follows outer place spare inner arguments isInstance
      (frame.unwind inner.regions isInstance exception origin next)
      ((frame.enclose place spare).unwind outer.regions isInstance exception (place origin)
        next) := by
  have search := encloses.find?_regions inTable (isInstance exception) origin
  simp only [Frame.unwind]
  cases found : (inner.regions.zipIdx.drop next).find? fun (region, _) =>
      region.intercepts (isInstance exception) origin with
  | none =>
      rw [found, Option.map_none, Option.none_or] at search
      have onwards : Follows outer place spare inner arguments isInstance
          (.finish (.threw exception)) _ := .threw fits inside
      simp only [Frame.unwind] at onwards
      rw [search]
      exact onwards
  | some entry =>
      obtain ⟨region, index⟩ := entry
      rw [found, Option.map_some, Option.some_or] at search
      have inRange : index < inner.regions.length := by
        have member := List.mem_of_mem_drop (List.mem_of_find?_eq_some found)
        have located := List.mem_zipIdx_iff_getElem?.mp member
        exact (List.getElem?_eq_some_iff.mp located).1
      simp only [search, Region.shift]
      have inCaught : index < frame.caught.length := fits.caught ▸ inRange
      split
      next =>
        have entered : Frame.Fits inner arguments { frame with
            stack := [exception]
            caught := frame.caught.set index (some exception)
            position := region.handler.start } :=
          ⟨fits.arguments, fits.slots, by simpa using fits.caught, fits.pending⟩
        have follows : Follows outer place spare inner arguments isInstance (.goOn _) _ :=
          .goOn entered
        simpa [Frame.enclose, inCaught, Range.shift] using follows
      next =>
        have entered : Frame.Fits inner arguments { frame with
            stack := []
            pending := .unwind exception origin (index + 1) :: frame.pending
            position := region.handler.start } :=
          ⟨fits.arguments, fits.slots, fits.caught,
            List.forall_mem_cons.mpr ⟨⟨inside, inRange⟩, fits.pending⟩⟩
        exact .goOn entered

theorem follows_raise (encloses : outer.Encloses place extra inner)
    (fits : frame.Fits inner arguments) (inside : frame.position < inner.body.length) :
    Follows outer place spare inner arguments isInstance
      (frame.raise inner.regions isInstance exception)
      ((frame.enclose place spare).raise outer.regions isInstance exception) :=
  encloses.follows_unwind fits inside (Nat.zero_le _)

theorem runHandlers_enclose (target : Nat) (regions : List Region) :
    (frame.enclose place spare).runHandlers (place target) (regions.map (·.shift place)) =
      (frame.runHandlers target regions).enclose place spare := by
  cases regions with
  | nil => rfl
  | cons region rest => rfl

theorem fits_runHandlers (fits : frame.Fits inner arguments) (target : Nat)
    (regions : List Region) : (frame.runHandlers target regions).Fits inner arguments := by
  cases regions with
  | nil => exact ⟨fits.arguments, fits.slots, fits.caught, fits.pending⟩
  | cons region rest =>
      exact ⟨fits.arguments, fits.slots, fits.caught,
        List.forall_mem_cons.mpr ⟨trivial, fits.pending⟩⟩

/-- The additional region protects the target of every leave of the inner routine. -/
theorem leave_enclose (encloses : outer.Encloses place extra inner) {target : Nat}
    (inside : target < inner.body.length) :
    (frame.enclose place spare).leave outer.regions (place target) =
      (frame.leave inner.regions target).enclose place spare := by
  have notLeft : extra.isLeft (place frame.position) (place target) = false := by
    simp [Region.isLeft, encloses.guards target inside]
  have left : outer.regions.filter (·.isLeft (place frame.position) (place target)) =
      (inner.regions.filter (·.isLeft frame.position target)).map (·.shift place) := by
    rw [encloses.regions, List.filter_append, List.filter_map]
    simp only [Function.comp_def, Region.isLeft_shift encloses.mono]
    simp [notLeft]
  simp only [Frame.leave]
  rw [show (frame.enclose place spare).position = place frame.position from rfl, left]
  exact runHandlers_enclose target _

theorem follows_endFinally (encloses : outer.Encloses place extra inner)
    (fits : frame.Fits inner arguments) {turn : Turn}
    (ended : frame.endFinally inner.regions isInstance = .ok turn) :
    ∃ outerTurn, (frame.enclose place spare).endFinally outer.regions isInstance = .ok outerTurn ∧
      Follows outer place spare inner arguments isInstance turn outerTurn := by
  simp only [Frame.endFinally] at ended
  cases pending : frame.pending with
  | nil => simp [pending] at ended
  | cons resumption others =>
      have fitsAll := fits.pending
      rw [pending, List.forall_mem_cons] at fitsAll
      have fitsRest : Frame.Fits inner arguments { frame with pending := others } :=
        ⟨fits.arguments, fits.slots, fits.caught, fitsAll.2⟩
      cases resumption with
      | leave rest target =>
          simp only [pending, Except.ok.injEq] at ended
          subst ended
          refine ⟨_, by simp only [Frame.endFinally, Frame.enclose, pending]; rfl, ?_⟩
          have follows : Follows outer place spare inner arguments isInstance (.goOn _) _ :=
            .goOn (fits_runHandlers fitsRest target rest)
          rw [← runHandlers_enclose] at follows
          exact follows
      | unwind exception origin next =>
          simp only [pending, Except.ok.injEq] at ended
          subst ended
          refine ⟨_, by simp only [Frame.endFinally, Frame.enclose, pending]; rfl, ?_⟩
          exact encloses.follows_unwind fitsRest fitsAll.1.1 fitsAll.1.2

/-- The additional handler is not around the code of the inner routine. -/
theorem currentException?_enclose (encloses : outer.Encloses place extra inner)
    (fits : frame.Fits inner arguments) (inside : frame.position < inner.body.length) :
    (frame.enclose place spare).currentException? outer.regions =
      frame.currentException? inner.regions := by
  have outside :
      (extra.clause.isCatch && extra.handler.contains (place frame.position)) = false := by
    rw [encloses.spares _ inside, Bool.and_false]
  have zipped : outer.regions.zip (frame.caught ++ [none]) =
      ((inner.regions.zip frame.caught).map (Prod.map (·.shift place) id)) ++ [(extra, none)] := by
    rw [encloses.regions, List.zip_append (by simp [fits.caught]), List.zip_map_left]
    rfl
  simp only [Frame.currentException?]
  simp only [Frame.enclose, zipped, List.find?_append, List.find?_map]
  rw [List.find?_singleton, if_neg (by simpa using outside), Option.or_none]
  have same : ∀ entry : Region × Option Value,
      ((entry.1.shift place).clause.isCatch &&
        (entry.1.shift place).handler.contains (place frame.position)) =
      (entry.1.clause.isCatch && entry.1.handler.contains frame.position) := by
    intro entry
    simp [Region.shift, encloses.mono]
  simp only [Function.comp_def, Prod.map_fst, same]
  cases (inner.regions.zip frame.caught).find? fun entry =>
      entry.1.clause.isCatch && entry.1.handler.contains frame.position with
  | none => rfl
  | some entry => rfl

theorem locate_enclose (encloses : outer.Encloses place extra inner) {target : InstrId}
    {position : Nat} (located : inner.body.locate target = .ok position) :
    position < inner.body.length ∧ outer.body.locate target = .ok (place position) := by
  rw [Body.locate_eq_ok_iff] at located ⊢
  exact encloses.position target position located

end Encloses

/-! ## Single steps -/

/-- The frame goes on with the next instruction, which stands at the next place. -/
private theorem follows_advance (fits : rest.Fits inner arguments)
    (next : place (rest.position + 1) = place rest.position + 1) :
    Follows outer place spare inner arguments isInstance (.goOn rest.advance)
      (.goOn (rest.enclose place spare).advance) := by
  rw [Frame.advance_enclose next]
  exact .goOn ⟨fits.arguments, fits.slots, fits.caught, fits.pending⟩

private theorem fits_pop {value : Value} (fits : frame.Fits inner arguments)
    (popped : frame.pop = .ok (value, rest)) :
    rest.Fits inner arguments ∧ rest.position = frame.position := by
  simp only [Frame.pop] at popped
  split at popped
  next =>
    simp only [Except.ok.injEq, Prod.mk.injEq] at popped
    rw [← popped.2]
    exact ⟨⟨fits.arguments, fits.slots, fits.caught, fits.pending⟩, rfl⟩
  next => contradiction

private theorem fits_popMany {count : Nat} {values : List Value}
    (fits : frame.Fits inner arguments) (popped : frame.popMany count = .ok (values, rest)) :
    rest.Fits inner arguments ∧ rest.position = frame.position := by
  simp only [Frame.popMany] at popped
  split at popped
  next => contradiction
  next =>
    simp only [Except.ok.injEq, Prod.mk.injEq] at popped
    rw [← popped.2]
    exact ⟨⟨fits.arguments, fits.slots, fits.caught, fits.pending⟩, rfl⟩

private theorem fits_store {index : Nat} {value : Value} (fits : frame.Fits inner arguments)
    (stored : frame.store index value = .ok rest) :
    rest.Fits inner arguments ∧ rest.position = frame.position := by
  simp only [Frame.store] at stored
  split at stored
  next =>
    simp only [Except.ok.injEq] at stored
    rw [← stored]
    exact ⟨⟨fits.arguments, by simpa using fits.slots, fits.caught, fits.pending⟩, rfl⟩
  next => contradiction

private theorem fits_push (fits : frame.Fits inner arguments) (value : Value) :
    (frame.push value).Fits inner arguments :=
  ⟨fits.arguments, fits.slots, fits.caught, fits.pending⟩

theorem follows_binary (fits : frame.Fits inner arguments)
    (next : place (frame.position + 1) = place frame.position + 1)
    {operation : Value → Value → Except Fault Value} {turn : Turn}
    (computed : binary frame operation = .ok turn) :
    ∃ outerTurn, binary (frame.enclose place spare) operation = .ok outerTurn ∧
      Follows outer place spare inner arguments isInstance turn outerTurn := by
  simp only [binary, bind_eq_ok_iff, pure_eq_ok_iff] at computed
  obtain ⟨⟨right, below⟩, poppedRight, ⟨left, rest⟩, poppedLeft, value, operated, rfl⟩ := computed
  obtain ⟨fitsBelow, sameBelow⟩ := fits_pop fits poppedRight
  obtain ⟨fitsRest, sameRest⟩ := fits_pop fitsBelow poppedLeft
  refine ⟨.goOn ((rest.push value).enclose place spare).advance, ?_,
    follows_advance (fits_push fitsRest value) ?_⟩
  · simp only [binary, Frame.pop_enclose poppedRight, Frame.pop_enclose poppedLeft, ok_bind,
      operated]
    rfl
  · rw [show (rest.push value).position = rest.position from rfl, sameRest, sameBelow, next]

theorem follows_branchIf (encloses : outer.Encloses place extra inner)
    (fits : frame.Fits inner arguments)
    (next : place (frame.position + 1) = place frame.position + 1) {wanted : Bool}
    {target : InstrId} {turn : Turn}
    (computed : inner.branchIf frame wanted target = .ok turn) :
    ∃ outerTurn, outer.branchIf (frame.enclose place spare) wanted target = .ok outerTurn ∧
      Follows outer place spare inner arguments isInstance turn outerTurn := by
  rw [branchIf, bind_eq_ok_iff] at computed
  obtain ⟨⟨value, rest⟩, popped, computed⟩ := computed
  obtain ⟨fitsRest, same⟩ := fits_pop fits popped
  rw [branchIf, Frame.pop_enclose popped, ok_bind]
  dsimp only at computed ⊢
  split at computed
  next taken =>
    simp only [bind_eq_ok_iff, pure_eq_ok_iff] at computed
    obtain ⟨position, located, rfl⟩ := computed
    rw [if_pos taken, (encloses.locate_enclose located).2, ok_bind]
    exact ⟨_, rfl, .goOn ⟨fitsRest.arguments, fitsRest.slots, fitsRest.caught, fitsRest.pending⟩⟩
  next notTaken =>
    rw [pure_eq_ok_iff] at computed
    subst computed
    rw [if_neg notTaken]
    exact ⟨_, rfl, follows_advance fitsRest (by rw [same, next])⟩

/-- What an instruction computes in the inner routine it computes in the outer one. -/
theorem follows_compute (encloses : outer.Encloses place extra inner)
    (fits : frame.Fits inner arguments) (inside : frame.position < inner.body.length)
    {id : InstrId} {instruction : Instruction}
    (next : instruction.op ≠ .ret → place (frame.position + 1) = place frame.position + 1)
    {turn : Turn} (computed : inner.compute isInstance frame id instruction = .ok turn) :
    ∃ outerTurn, outer.compute isInstance (frame.enclose place spare) id instruction =
        .ok outerTurn ∧
      Follows outer place spare inner arguments isInstance turn outerTurn := by
  obtain ⟨op, operand⟩ := instruction
  have advancing : ∀ {rest : Frame}, rest.Fits inner arguments → rest.position = frame.position →
      op ≠ .ret → Follows outer place spare inner arguments isInstance (.goOn rest.advance)
        (.goOn (rest.enclose place spare).advance) := by
    intro rest fitsRest same notRet
    exact follows_advance fitsRest (same ▸ next notRet)
  have pushing : ∀ value, op ≠ .ret → Follows outer place spare inner arguments isInstance
      (.goOn (frame.push value).advance) (.goOn ((frame.enclose place spare).push value).advance) :=
    fun value notRet => advancing (fits_push fits value) rfl notRet
  cases op with
  | nop =>
      cases computed
      exact ⟨_, rfl, advancing fits rfl (by decide)⟩
  | ldnull =>
      cases computed
      exact ⟨_, rfl, pushing .null (by decide)⟩
  | ldarg =>
      cases operand with
      | argument index =>
          simp only [compute, bind_eq_ok_iff, pure_eq_ok_iff] at computed ⊢
          obtain ⟨value, read, rfl⟩ := computed
          exact ⟨_, ⟨value, read, rfl⟩, pushing value (by decide)⟩
      | _ => cases computed
  | ldloc =>
      cases operand with
      | slot index =>
          simp only [compute, bind_eq_ok_iff, pure_eq_ok_iff] at computed ⊢
          obtain ⟨value, read, rfl⟩ := computed
          exact ⟨_, ⟨value, Frame.slotAt_enclose read, rfl⟩, pushing value (by decide)⟩
      | _ => cases computed
  | stloc =>
      cases operand with
      | slot index =>
          simp only [compute, bind_eq_ok_iff, pure_eq_ok_iff] at computed ⊢
          obtain ⟨⟨value, below⟩, popped, rest, stored, rfl⟩ := computed
          obtain ⟨fitsBelow, sameBelow⟩ := fits_pop fits popped
          obtain ⟨fitsRest, sameRest⟩ := fits_store fitsBelow stored
          exact ⟨_, ⟨_, Frame.pop_enclose popped, _, Frame.store_enclose stored, rfl⟩,
            advancing fitsRest (sameRest.trans sameBelow) (by decide)⟩
      | _ => cases computed
  | ldcI4 =>
      cases operand with
      | int32 value =>
          cases computed
          exact ⟨_, rfl, pushing (.int32 value) (by decide)⟩
      | _ => cases computed
  | ldstr =>
      cases operand with
      | string value =>
          cases computed
          exact ⟨_, rfl, pushing (.string value) (by decide)⟩
      | _ => cases computed
  | dup =>
      simp only [compute, bind_eq_ok_iff, pure_eq_ok_iff] at computed ⊢
      obtain ⟨⟨value, rest⟩, popped, rfl⟩ := computed
      obtain ⟨fitsRest, same⟩ := fits_pop fits popped
      exact ⟨_, ⟨_, Frame.pop_enclose popped, rfl⟩,
        advancing (fits_push (fits_push fitsRest value) value) same (by decide)⟩
  | pop =>
      simp only [compute, bind_eq_ok_iff, pure_eq_ok_iff] at computed ⊢
      obtain ⟨⟨value, rest⟩, popped, rfl⟩ := computed
      obtain ⟨fitsRest, same⟩ := fits_pop fits popped
      exact ⟨_, ⟨_, Frame.pop_enclose popped, rfl⟩, advancing fitsRest same (by decide)⟩
  | add | sub | mul | ceq | clt | cgt => exact follows_binary fits (next (by simp)) computed
  | br =>
      cases operand with
      | target target =>
          simp only [compute, bind_eq_ok_iff, pure_eq_ok_iff] at computed ⊢
          obtain ⟨position, located, rfl⟩ := computed
          exact ⟨_, ⟨_, (encloses.locate_enclose located).2, rfl⟩,
            .goOn ⟨fits.arguments, fits.slots, fits.caught, fits.pending⟩⟩
      | _ => cases computed
  | brtrue | brfalse =>
      cases operand with
      | target target => exact follows_branchIf encloses fits (next (by simp)) computed
      | _ => cases computed
  | call | callvirt | newobj => cases computed
  | ret =>
      simp only [compute] at computed ⊢
      rw [encloses.isVoid]
      split at computed
      next void =>
        cases computed
        exact ⟨_, if_pos void, .returned none⟩
      next valued =>
        simp only [bind_eq_ok_iff, pure_eq_ok_iff] at computed
        obtain ⟨⟨value, rest⟩, popped, rfl⟩ := computed
        rw [if_neg valued, Frame.pop_enclose popped]
        exact ⟨_, rfl, .returned (some value)⟩
  | throw =>
      simp only [compute, bind_eq_ok_iff] at computed
      obtain ⟨⟨value, rest⟩, popped, computed⟩ := computed
      obtain ⟨fitsRest, same⟩ := fits_pop fits popped
      simp only [compute, Frame.pop_enclose popped, ok_bind]
      cases value with
      | null => cases computed
      | _ =>
          cases computed
          exact ⟨_, rfl, encloses.follows_raise fitsRest (same ▸ inside)⟩
  | rethrow =>
      simp only [compute, encloses.currentException?_enclose fits inside] at computed ⊢
      cases caught : frame.currentException? inner.regions with
      | none => simp [caught] at computed
      | some exception =>
          simp only [caught, Except.ok.injEq] at computed
          subst computed
          exact ⟨_, rfl, encloses.follows_raise fits inside⟩
  | leave =>
      cases operand with
      | target target =>
          simp only [compute, bind_eq_ok_iff, pure_eq_ok_iff] at computed ⊢
          obtain ⟨position, located, rfl⟩ := computed
          obtain ⟨placed, located⟩ := encloses.locate_enclose located
          refine ⟨_, ⟨_, located, rfl⟩, ?_⟩
          rw [encloses.leave_enclose placed]
          exact .goOn (Encloses.fits_runHandlers fits position _)
      | _ => cases computed
  | endfinally => exact encloses.follows_endFinally fits computed

private theorem takeArguments_enclose (place : Nat → Nat) (spare : Array Value)
    {callee : MemberRef} {receiver : Option Value} {values : List Value}
    (fits : frame.Fits inner arguments)
    (taken : takeArguments frame callee = .ok (receiver, values, rest)) :
    takeArguments (frame.enclose place spare) callee =
        .ok (receiver, values, rest.enclose place spare) ∧
      rest.Fits inner arguments ∧ rest.position = frame.position := by
  rw [takeArguments, bind_eq_ok_iff] at taken
  obtain ⟨⟨popped, below⟩, poppedMany, taken⟩ := taken
  obtain ⟨fitsBelow, sameBelow⟩ := fits_popMany fits poppedMany
  rw [takeArguments, Frame.popMany_enclose poppedMany, ok_bind]
  dsimp only at taken ⊢
  split at taken
  next instanceCall =>
    simp only [bind_eq_ok_iff, pure_eq_ok_iff, Prod.mk.injEq] at taken
    obtain ⟨⟨self, last⟩, poppedSelf, rfl, rfl, rfl⟩ := taken
    obtain ⟨fitsRest, same⟩ := fits_pop fitsBelow poppedSelf
    rw [if_pos instanceCall, Frame.pop_enclose poppedSelf]
    exact ⟨rfl, fitsRest, same.trans sameBelow⟩
  next staticCall =>
    simp only [pure_eq_ok_iff, Prod.mk.injEq] at taken
    obtain ⟨rfl, rfl, rfl⟩ := taken
    rw [if_neg staticCall]
    exact ⟨rfl, fitsBelow, sameBelow⟩

variable {σ : Type} {host : Host σ} {world ended : σ} {turn : Turn} {limit : Nat}
variable {id : InstrId} {instruction : Instruction}

theorem follows_afterCall (encloses : outer.Encloses place extra inner)
    (fits : rest.Fits inner arguments) (inside : rest.position < inner.body.length)
    (next : place (rest.position + 1) = place rest.position + 1) (discards : Bool) (world : σ)
    (completion : Completion) :
    Follows outer place spare inner arguments (host.isInstance world)
      (inner.afterCall host rest discards world completion)
      (outer.afterCall host (rest.enclose place spare) discards world completion) := by
  cases completion with
  | returned value =>
      cases value with
      | none => exact follows_advance fits next
      | some value =>
          cases discards with
          | true => exact follows_advance fits next
          | false => exact follows_advance (fits_push fits value) next
  | threw exception => exact encloses.follows_raise fits inside

/-- A call takes the same arguments from the enclosed frame, so the host answers the same. -/
theorem follows_call (encloses : outer.Encloses place extra inner)
    (fits : frame.Fits inner arguments) (inside : frame.position < inner.body.length)
    (next : place (frame.position + 1) = place frame.position + 1) {callee : MemberRef}
    (called : inner.call host frame callee world = (.ok turn, ended)) :
    ∃ outerTurn, outer.call host (frame.enclose place spare) callee world =
        (.ok outerTurn, ended) ∧
      Follows outer place spare inner arguments (host.isInstance ended) turn outerTurn := by
  obtain ⟨receiver, values, rest, completion, taken, answered, rfl⟩ := call_eq_ok_iff.mp called
  obtain ⟨takenOuter, fitsRest, same⟩ := takeArguments_enclose place spare fits taken
  exact ⟨_, call_eq_ok_iff.mpr ⟨_, _, _, _, takenOuter, answered, rfl⟩,
    follows_afterCall encloses fitsRest (same ▸ inside) (by rw [same, next]) _ _ _⟩

theorem follows_construct (encloses : outer.Encloses place extra inner)
    (fits : frame.Fits inner arguments) (inside : frame.position < inner.body.length)
    (next : place (frame.position + 1) = place frame.position + 1) {constructor : MemberRef}
    (constructed : inner.construct host frame constructor world = (.ok turn, ended)) :
    ∃ outerTurn, outer.construct host (frame.enclose place spare) constructor world =
        (.ok outerTurn, ended) ∧
      Follows outer place spare inner arguments (host.isInstance ended) turn outerTurn := by
  obtain ⟨values, rest, completion, taken, answered, object, rfl⟩ :=
    construct_eq_ok_iff.mp constructed
  obtain ⟨fitsRest, same⟩ := fits_popMany fits taken
  exact ⟨_, construct_eq_ok_iff.mpr
      ⟨_, _, _, Frame.popMany_enclose taken, answered, object, rfl⟩,
    follows_afterCall encloses fitsRest (same ▸ inside) (by rw [same, next]) _ _ _⟩

/-- One step of the inner routine is one step of the outer routine. -/
theorem follows_step (encloses : outer.Encloses place extra inner)
    (fits : frame.Fits inner arguments) (inside : frame.position < inner.body.length)
    (next : instruction.op ≠ .ret → place (frame.position + 1) = place frame.position + 1)
    (stepped : inner.step host frame id instruction world = (.ok turn, ended)) :
    ∃ outerTurn, outer.step host (frame.enclose place spare) id instruction world =
        (.ok outerTurn, ended) ∧
      Follows outer place spare inner arguments (host.isInstance ended) turn outerTurn := by
  simp only [step] at stepped ⊢
  split at stepped
  next callee op operand =>
    exact follows_call encloses fits inside (next (by simp [op])) stepped
  next callee op operand =>
    exact follows_call encloses fits inside (next (by simp [op])) stepped
  next constructor op operand =>
    exact follows_construct encloses fits inside (next (by simp [op])) stepped
  next =>
    simp only [Prod.mk.injEq] at stepped
    obtain ⟨computed, rfl⟩ := stepped
    obtain ⟨outerTurn, computedOuter, follows⟩ := follows_compute encloses fits inside next computed
    exact ⟨outerTurn, by rw [computedOuter], follows⟩

/-- A host that reports a spent budget reports it to the outer routine as well. -/
theorem step_stepLimit (fits : frame.Fits inner arguments)
    (stepped : inner.step host frame id instruction world = (.error (.stepLimit limit), ended)) :
    outer.step host (frame.enclose place spare) id instruction world =
      (.error (.stepLimit limit), ended) := by
  by_cases isRet : instruction.op = .ret
  · have within : WithinBudget (inner.step host frame id instruction world).1 :=
      withinBudget_step_ret isRet
    exact absurd (congrArg Prod.fst stepped) (within limit)
  simp only [step] at stepped ⊢
  split at stepped
  case h_4 =>
    have computed := (Prod.mk.inj stepped).1
    have stays : StaysInRun (inner.compute (host.isInstance world) frame id instruction) :=
      staysInRun_compute isRet
    rw [computed] at stays
    exact stays.elim
  case h_3 constructor _ _ =>
    simp only [construct] at stepped
    split at stepped
    next fault taken =>
      cases stepped
      exact absurd taken (withinBudget_popMany _ limit)
    next values rest taken =>
      split at stepped
      next fault after answered =>
        simp only [construct, Frame.popMany_enclose taken, answered]
        exact stepped
      next => cases stepped
      next => cases stepped
  all_goals
    simp only [call] at stepped
    split at stepped
    next fault taken =>
      cases stepped
      exact absurd taken (withinBudget_takeArguments _ limit)
    next receiver values rest taken =>
      obtain ⟨takenOuter, _, _⟩ := takeArguments_enclose place spare fits taken
      split at stepped
      next fault after answered =>
        simp only [call, takenOuter, answered]
        exact stepped
      next => cases stepped

/-! ## Paths -/

theorem fetch?_lt {position : Nat} (fetched : inner.fetch? position = some (id, instruction)) :
    position < inner.body.length :=
  (List.getElem?_eq_some_iff.mp (fetch?_eq_some_iff.mp fetched).1).1

/-- Where the inner routine goes on, the outer routine goes on along with it. -/
theorem step_goOn (encloses : outer.Encloses place extra inner) {next : Frame}
    (fits : frame.Fits inner arguments)
    (fetched : inner.fetch? frame.position = some (id, instruction))
    (stepped : inner.step host frame id instruction world = (.ok (.goOn next), ended)) :
    outer.fetch? (place frame.position) = some (id, instruction) ∧
      outer.step host (frame.enclose place spare) id instruction world =
        (.ok (.goOn (next.enclose place spare)), ended) ∧ next.Fits inner arguments := by
  obtain ⟨fetchedOuter, behind⟩ := encloses.fetch _ _ _ fetched (op_ne_ret_of_step stepped nofun)
  obtain ⟨outerTurn, steppedOuter, follows⟩ :=
    follows_step encloses fits (fetch?_lt fetched) (fun _ => behind) stepped
  cases follows with
  | goOn fitsNext => exact ⟨fetchedOuter, steppedOuter, fitsNext⟩

/-- As long as the inner routine runs, the outer routine runs through the same operations. -/
theorem path_enclose (encloses : outer.Encloses place extra inner) {first last : Frame}
    {ops : List Op} (fits : first.Fits inner arguments)
    (path : Path inner host first world ops last ended) :
    Path outer host (first.enclose place spare) world ops (last.enclose place spare) ended ∧
      last.Fits inner arguments := by
  induction path with
  | refl => exact ⟨.refl _ _, fits⟩
  | step fetched stepped _ ih =>
      obtain ⟨fetchedOuter, steppedOuter, fitsMiddle⟩ := step_goOn encloses fits fetched stepped
      obtain ⟨path, fitsLast⟩ := ih fitsMiddle
      exact ⟨.step fetchedOuter steppedOuter path, fitsLast⟩

/-- When an exception leaves the inner routine, the outer one goes on to the additional region. -/
theorem step_threw (encloses : outer.Encloses place extra inner)
    (fits : frame.Fits inner arguments)
    (fetched : inner.fetch? frame.position = some (id, instruction))
    (stepped : inner.step host frame id instruction world =
      (.ok (.finish (.threw exception)), ended)) :
    outer.fetch? (place frame.position) = some (id, instruction) ∧
      ∃ last : Frame, ∃ origin, last.Fits inner arguments ∧ origin < inner.body.length ∧
        outer.step host (frame.enclose place spare) id instruction world =
          (.ok ((last.enclose place spare).unwind outer.regions (host.isInstance ended) exception
            (place origin) inner.regions.length), ended) := by
  obtain ⟨fetchedOuter, next⟩ := encloses.fetch _ _ _ fetched (op_ne_ret_of_step stepped nofun)
  obtain ⟨outerTurn, steppedOuter, follows⟩ :=
    follows_step encloses fits (fetch?_lt fetched) (fun _ => next) stepped
  cases follows with
  | threw fitsLast inside => exact ⟨fetchedOuter, _, _, fitsLast, inside, steppedOuter⟩

end Routine

end Splice
