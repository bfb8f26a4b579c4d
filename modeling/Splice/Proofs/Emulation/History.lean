import Splice.Proofs.Emulation.Visits

/-!
# Histories

The history of a run tells for every step what it did about the handlers: where it raised an
exception or left protected ranges, and which handler was entered by the transfer that went on. It
determines what the last frame knows about handlers. The caught exceptions are those of the last
captures, and every transfer that waits was started by an earlier step.
-/

namespace Splice

variable {σ : Type} {routine : Routine} {host : Host σ} {regions : List Region}
variable {isInstance : Value → TypeExpr → Bool} {frame next first : Frame} {world between : σ}
variable {transfer : Resumption}

/-- An entry into a catch handler with an exception. -/
structure Capture where
  region : Region
  exception : Value
  deriving DecidableEq

/-- The capture that a transfer ends with, if it comes to a catch handler next. -/
def Resumption.capture? (regions : List Region) (isInstance : Value → TypeExpr → Bool) :
    Resumption → Option Capture
  | .leave _ _ => none
  | .unwind exception origin next =>
    match (regions.zipIdx.drop next).find? fun (region, _) =>
        region.intercepts (isInstance exception) origin with
    | none => none
    | some (region, _) => if region.clause.isCatch then some ⟨region, exception⟩ else none

/-- What one step of a run has done. -/
structure Event where
  source : Nat
  target : Nat
  conduct : Conduct
  visit? : Option Visit
  capture? : Option Capture
  deriving DecidableEq

namespace Event

/-- The event of a step with the given conduct. -/
def along (regions : List Region) (isInstance : Value → TypeExpr → Bool) (source target : Nat)
    (conduct : Conduct) : Event where
  source := source
  target := target
  conduct := conduct
  visit? := (conduct.transfer? regions source).bind (·.visit? regions isInstance)
  capture? := (conduct.transfer? regions source).bind (·.capture? regions isInstance)

variable {source target : Nat} {conduct : Conduct}

theorem visit?_along (starts : conduct.transfer? regions source = some transfer) :
    (along regions isInstance source target conduct).visit? =
      transfer.visit? regions isInstance := by
  simp only [along, starts, Option.bind_some]

theorem capture?_along (starts : conduct.transfer? regions source = some transfer) :
    (along regions isInstance source target conduct).capture? =
      transfer.capture? regions isInstance := by
  simp only [along, starts, Option.bind_some]

end Event

namespace Routine

/-- A run has come from the first frame to the last by the steps of the history, the last of which
is the first of the list. -/
inductive Past (routine : Routine) (host : Host σ) (first : Frame) (world : σ) :
    List Event → Frame → σ → Prop where
  | start : Past routine host first world [] first world
  | step {events : List Event} {frame next : Frame} {between after : σ} {id : InstrId}
      {instruction : Instruction} :
      Past routine host first world events frame between →
      routine.fetch? frame.position = some (id, instruction) →
      routine.step host frame id instruction between = (.ok (.goOn next), after) →
      Past routine host first world
        (.along routine.regions (host.isInstance after) frame.position next.position
          (routine.conduct host frame instruction between) :: events) next after

/-- Every path prolongs the history. -/
theorem exists_past_of_path {events : List Event} {ops : List Op} {last : Frame} {ended : σ}
    (past : Past routine host first world events frame between)
    (path : Path routine host frame between ops last ended) :
    ∃ later, Past routine host first world (later ++ events) last ended ∧
      later.length = ops.length := by
  induction path generalizing events with
  | refl => exact ⟨[], past, rfl⟩
  | step fetched stepped _ ih =>
      obtain ⟨later, further, same⟩ := ih (past.step fetched stepped)
      rw [List.append_cons] at further
      exact ⟨_, further, by simp [same]⟩

end Routine

/-! ## What a transfer comes to -/

/-- A transfer that comes to a catch handler next notes its exception there. -/
theorem carryOn_capture {capture : Capture}
    (carried : frame.carryOn regions isInstance transfer = .goOn next)
    (captures : transfer.capture? regions isInstance = some capture) :
    ∃ index, regions[index]? = some capture.region ∧ capture.region.clause.isCatch ∧
      next.caught = frame.caught.set index (some capture.exception) := by
  cases transfer with
  | leave rest target => cases captures
  | unwind exception origin start =>
      simp only [Resumption.capture?] at captures
      simp only [Frame.carryOn, Frame.unwind] at carried
      split at captures
      · cases captures
      next region index found =>
        simp only [found] at carried
        split at captures
        next isCatch =>
          rw [if_pos isCatch] at carried
          cases captures
          cases carried
          have listed : (region, index) ∈ regions.zipIdx :=
            List.mem_of_mem_drop (List.mem_of_find?_eq_some found)
          exact ⟨index, List.mem_zipIdx_iff_getElem?.mp listed, isCatch, rfl⟩
        · cases captures

theorem caught_of_carryOn (carried : frame.carryOn regions isInstance transfer = .goOn next)
    (captures : transfer.capture? regions isInstance = none) : next.caught = frame.caught := by
  cases transfer with
  | leave rest target =>
      cases carried
      cases rest <;> rfl
  | unwind exception origin start =>
      simp only [Resumption.capture?] at captures
      simp only [Frame.carryOn, Frame.unwind] at carried
      split at captures
      next nothing =>
        simp only [nothing] at carried
        cases carried
      next region index found =>
        simp only [found] at carried
        split at captures
        · cases captures
        next notCatch =>
          rw [if_neg notCatch] at carried
          cases carried
          rfl

end Splice
