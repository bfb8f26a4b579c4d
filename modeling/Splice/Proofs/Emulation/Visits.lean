import Splice.Proofs.Emulation.Conduct

/-!
# Visits

The handler of a region that is not a catch clause is entered on the way of a transfer of control: a
`leave`, a search for the handler of an exception, or either of them going on when an earlier
handler has ended. The record of a run notes each such entry with what is to follow it, apart from
the resumptions that the frame keeps.
-/

namespace Splice

variable {σ : Type}

/-- An entry into a finally handler, and what is to follow when the handler ends. -/
structure Visit where
  region : Region
  resumption : Resumption
  deriving DecidableEq

namespace Resumption

/-- The visit that a transfer makes next. It makes none when it arrives at its target, at a catch
handler or at the end of the run. -/
def visit? (regions : List Region) (isInstance : Value → TypeExpr → Bool) :
    Resumption → Option Visit
  | .leave [] _ => none
  | .leave (region :: rest) target => some ⟨region, .leave rest target⟩
  | .unwind exception origin next =>
    match (regions.zipIdx.drop next).find? fun (region, _) =>
        region.intercepts (isInstance exception) origin with
    | none => none
    | some (region, index) =>
      if region.clause.isCatch then none
      else some ⟨region, .unwind exception origin (index + 1)⟩

/-- What an instruction at the position starts: a `leave` of all regions that it is to leave, or a
search from the first region on. -/
def StartsAt (regions : List Region) (position : Nat) : Resumption → Prop
  | .leave rest target => rest = regions.filter (·.isLeft position target)
  | .unwind _ origin next => origin = position ∧ next = 0

/-- The regions whose handlers the transfer may still visit. -/
def MayVisit (regions : List Region) : Resumption → Region → Prop
  | .leave rest _, region => region ∈ rest
  | .unwind _ origin _, region =>
    region ∈ regions ∧ region.clause.isCatch = false ∧ region.guarded.contains origin

end Resumption

/-- What an instruction does about the handlers around it: it stays clear of them, starts a transfer
or resumes the one that waits, which makes a visit or none. -/
inductive Transfers (regions : List Region) (isInstance : Value → TypeExpr → Bool)
    (frame : Frame) : Op → Frame → Option Visit → Prop where
  | move {op : Op} {next : Frame} : op ≠ .endfinally → next.pending = frame.pending →
      Transfers regions isInstance frame op next none
  | start {op : Op} {next before : Frame} {transfer : Resumption} : op ≠ .endfinally →
      transfer.StartsAt regions frame.position → before.pending = frame.pending →
      before.carryOn regions isInstance transfer = .goOn next →
      Transfers regions isInstance frame op next (transfer.visit? regions isInstance)
  | resume {next : Frame} {transfer : Resumption} {pending : List Resumption} :
      frame.pending = transfer :: pending →
      { frame with pending }.carryOn regions isInstance transfer = .goOn next →
      Transfers regions isInstance frame .endfinally next (transfer.visit? regions isInstance)

/-- The finally handlers around a position. -/
def running (regions : List Region) (position : Nat) : List Range :=
  (regions.filter fun region => !region.clause.isCatch && region.handler.contains position).map
    (·.handler)

/-- The ranges but the innermost one. -/
def outer (ranges : List Range) : List Range :=
  ranges.filter fun range => !ranges.all range.isWithin

/-- One instruction as the finally handlers see it. -/
structure Passage where
  /-- The handlers around the instruction that it does not end. -/
  before : List Range
  after : List Range
  visited : List Range
  deriving DecidableEq

namespace Passage

/-- An `endfinally` ends the handler that it stands in. -/
def along (regions : List Region) (op : Op) (source target : Nat) (visit? : Option Visit) :
    Passage where
  before := if op = .endfinally then outer (running regions source) else running regions source
  after := running regions target
  visited := visit?.toList.map (·.region.handler)

/-- A handler is entered by a visit only. -/
def EntersByVisit (passage : Passage) : Prop :=
  passage.after ⊆ passage.before ++ passage.visited

/-- No handler is abandoned, unless it is for code in no other handler than the visited one. -/
def Keeps (passage : Passage) : Prop :=
  passage.before ⊆ passage.after ∨ passage.after ⊆ passage.visited

instance : DecidablePred EntersByVisit := fun passage =>
  inferInstanceAs (Decidable (passage.after ⊆ passage.before ++ passage.visited))

instance : DecidablePred Keeps := fun passage =>
  inferInstanceAs (Decidable (passage.before ⊆ passage.after ∨ passage.after ⊆ passage.visited))

end Passage

/-- What a run has done about finally handlers, the last first. -/
structure Record where
  visits : List Visit
  /-- The visits whose handlers have not come to their end. -/
  waiting : List Visit
  /-- The visits that an `endfinally` has gone on from. -/
  resumed : List Visit
  passages : List Passage
  deriving DecidableEq

namespace Record

/-- The record of a run that starts at the position, as if it came from outside all handlers. -/
def start (regions : List Region) (position : Nat) : Record :=
  ⟨[], [], [], [⟨[], running regions position, []⟩]⟩

/-- Record an instruction with the visit that it makes. -/
def follow (record : Record) (regions : List Region) (op : Op) (source target : Nat)
    (visit? : Option Visit) : Record where
  visits := visit?.toList ++ record.visits
  waiting := visit?.toList ++
    if op = .endfinally then record.waiting.tail else record.waiting
  resumed := if op = .endfinally then record.waiting.take 1 ++ record.resumed else record.resumed
  passages := .along regions op source target visit? :: record.passages

end Record

/-- The record of a run that has come from the first frame to the last. -/
inductive Recorded (routine : Routine) (host : Host σ) (first : Frame) (world : σ) :
    Record → Frame → σ → Prop where
  | start : Recorded routine host first world (.start routine.regions first.position) first world
  | step {record : Record} {frame next : Frame} {between after : σ} {id : InstrId}
      {instruction : Instruction} {visit? : Option Visit} :
      Recorded routine host first world record frame between →
      routine.fetch? frame.position = some (id, instruction) →
      routine.step host frame id instruction between = (.ok (.goOn next), after) →
      Transfers routine.regions (host.isInstance after) frame instruction.op next visit? →
      Recorded routine host first world
        (record.follow routine.regions instruction.op frame.position next.position visit?) next
        after

namespace Routine

variable {routine : Routine} {host : Host σ} {frame : Frame} {world : σ} {id : InstrId}

theorem step_leave {destination : InstrId} {target : Nat}
    (located : routine.body.locate destination = .ok target) :
    routine.step host frame id (.leaveTo destination) world =
      (.ok (.goOn (frame.leave routine.regions target)), world) := by
  change ((do return .goOn (frame.leave routine.regions (← routine.body.locate destination)) :
    Except Fault Turn), world) = _
  rw [located]
  rfl

theorem step_endfinally {operand : Operand} {transfer : Resumption} {pending : List Resumption}
    (waits : frame.pending = transfer :: pending) :
    routine.step host frame id ⟨.endfinally, operand⟩ world =
      (.ok ({ frame with pending }.carryOn routine.regions (host.isInstance world) transfer),
        world) := by
  change (frame.endFinally routine.regions (host.isInstance world), world) = _
  rw [endFinally_of_pending waits]

end Routine

namespace Recorded

variable {routine : Routine} {host : Host σ} {first frame next : Frame} {world between : σ}
variable {record : Record} {id : InstrId}

theorem move {instruction : Instruction}
    (recorded : Recorded routine host first world record frame between)
    (fetched : routine.fetch? frame.position = some (id, instruction))
    (stepped : routine.step host frame id instruction between = (.ok (.goOn next), between))
    (stays : instruction.op ≠ .endfinally) (same : next.pending = frame.pending) :
    Recorded routine host first world
      (record.follow routine.regions instruction.op frame.position next.position none) next
      between :=
  recorded.step fetched stepped (.move stays same)

theorem leave {target : InstrId} {position : Nat}
    (recorded : Recorded routine host first world record frame between)
    (fetched : routine.fetch? frame.position = some (id, .leaveTo target))
    (located : routine.body.locate target = .ok position) :
    Recorded routine host first world
      (record.follow routine.regions .leave frame.position
        (frame.leave routine.regions position).position
        ((Resumption.leave (routine.regions.filter (·.isLeft frame.position position))
          position).visit? routine.regions (host.isInstance between)))
      (frame.leave routine.regions position) between :=
  recorded.step fetched (Routine.step_leave located) (.start nofun rfl rfl rfl)

theorem raise {instruction : Instruction} {before : Frame} {exception : Value}
    (recorded : Recorded routine host first world record frame between)
    (fetched : routine.fetch? frame.position = some (id, instruction))
    (stepped : routine.step host frame id instruction between = (.ok (.goOn next), between))
    (stays : instruction.op ≠ .endfinally) (same : before.pending = frame.pending)
    (raised : before.unwind routine.regions (host.isInstance between) exception frame.position 0 =
      .goOn next) :
    Recorded routine host first world
      (record.follow routine.regions instruction.op frame.position next.position
        ((Resumption.unwind exception frame.position 0).visit? routine.regions
          (host.isInstance between))) next between := by
  have starts : (Resumption.unwind exception frame.position 0).StartsAt routine.regions
      frame.position := ⟨rfl, rfl⟩
  exact recorded.step fetched stepped (.start stays starts same raised)

theorem resume {operand : Operand} {transfer : Resumption} {pending : List Resumption}
    (recorded : Recorded routine host first world record frame between)
    (fetched : routine.fetch? frame.position = some (id, ⟨.endfinally, operand⟩))
    (waits : frame.pending = transfer :: pending)
    (carried : { frame with pending }.carryOn routine.regions (host.isInstance between) transfer =
      .goOn next) :
    Recorded routine host first world
      (record.follow routine.regions .endfinally frame.position next.position
        (transfer.visit? routine.regions (host.isInstance between))) next between := by
  apply recorded.step fetched
  · rw [Routine.step_endfinally waits, carried]
  · exact .resume waits carried

end Recorded

/-! ## What an instruction does -/

section Parts

variable {regions : List Region} {isInstance : Value → TypeExpr → Bool} {frame next : Frame}

/-- A transfer goes on to the handler that it visits next, and leaves its rest there. -/
theorem carryOn_visit {transfer : Resumption} {visit : Visit}
    (carried : frame.carryOn regions isInstance transfer = .goOn next)
    (visits : transfer.visit? regions isInstance = some visit) :
    next.position = visit.region.handler.start ∧
      next.pending = visit.resumption :: frame.pending := by
  cases transfer with
  | leave rest target =>
      cases rest with
      | nil => cases visits
      | cons region rest =>
          cases visits
          cases carried
          exact ⟨rfl, rfl⟩
  | unwind exception origin start =>
      simp only [Resumption.visit?] at visits
      simp only [Frame.carryOn, Frame.unwind] at carried
      split at visits
      · cases visits
      next region index found =>
        simp only [found] at carried
        split at visits
        · cases visits
        next notCatch =>
          rw [if_neg notCatch] at carried
          cases visits
          cases carried
          exact ⟨rfl, rfl⟩

theorem carryOn_arrives {transfer : Resumption}
    (carried : frame.carryOn regions isInstance transfer = .goOn next)
    (arrives : transfer.visit? regions isInstance = none) : next.pending = frame.pending := by
  cases transfer with
  | leave rest target =>
      cases rest with
      | nil =>
          cases carried
          rfl
      | cons region rest => cases arrives
  | unwind exception origin start =>
      simp only [Resumption.visit?] at arrives
      simp only [Frame.carryOn, Frame.unwind] at carried
      split at arrives
      next nothing =>
        simp only [nothing] at carried
        cases carried
      next region index found =>
        simp only [found] at carried
        split at arrives
        next isCatch =>
          rw [if_pos isCatch] at carried
          cases carried
          rfl
        · cases arrives

end Parts

/-- The next visit of a transfer is one that it may make, and so are those that come after it. -/
theorem Resumption.mayVisit_of_visit? {regions : List Region}
    {isInstance : Value → TypeExpr → Bool} {transfer : Resumption} {visit : Visit}
    (visits : transfer.visit? regions isInstance = some visit) :
    transfer.MayVisit regions visit.region ∧
      ∀ region, visit.resumption.MayVisit regions region → transfer.MayVisit regions region := by
  cases transfer with
  | leave rest target =>
      cases rest with
      | nil => cases visits
      | cons region rest =>
          cases visits
          exact ⟨List.mem_cons_self, fun _ later => List.mem_cons_of_mem region later⟩
  | unwind exception origin start =>
      simp only [visit?] at visits
      split at visits
      · cases visits
      next region index found =>
        split at visits
        · cases visits
        next notCatch =>
          cases visits
          have intercepts := List.find?_some found
          simp only [Region.intercepts, Bool.and_eq_true] at intercepts
          have inTable : region ∈ regions :=
            List.fst_mem_of_mem_zipIdx (List.mem_of_mem_drop (List.mem_of_find?_eq_some found))
          exact ⟨⟨inTable, Bool.eq_false_iff.mpr notCatch, intercepts.1⟩, fun _ may => may⟩

namespace Routine

variable {routine : Routine} {host : Host σ} {frame next first middle last : Frame}
variable {world between after ended : σ} {id : InstrId} {instruction : Instruction}
variable {record : Record} {ops : List Op}

/-- Every step that goes on does one of the three things about the handlers. -/
theorem transfers_of_step
    (stepped : routine.step host frame id instruction world = (.ok (.goOn next), after)) :
    ∃ visit?, Transfers routine.regions (host.isInstance after) frame instruction.op next
      visit? := by
  by_cases ends : instruction.op = .endfinally
  · obtain ⟨op, operand⟩ := instruction
    cases ends
    cases waits : frame.pending with
    | nil => simp [step, compute, Frame.endFinally, waits] at stepped
    | cons transfer pending =>
        rw [step_endfinally waits, Prod.mk.injEq, Except.ok.injEq] at stepped
        obtain ⟨carried, rfl⟩ := stepped
        exact ⟨_, .resume waits carried⟩
  · have leads := leads_of_step stepped
    generalize told : routine.conduct host frame instruction world = conduct at leads
    cases leads with
    | stay samePending => exact ⟨none, .move ends samePending⟩
    | transfer starts waits _ carried =>
        cases conduct with
        | stay => cases starts
        | raise exception =>
            cases starts
            have starts : (Resumption.unwind exception frame.position 0).StartsAt routine.regions
                frame.position := ⟨rfl, rfl⟩
            exact ⟨_, .start ends starts waits.symm carried⟩
        | leave target =>
            cases starts
            have starts : (Resumption.leave (routine.regions.filter
                (·.isLeft frame.position target)) target).StartsAt routine.regions
                  frame.position := rfl
            exact ⟨_, .start ends starts waits.symm carried⟩
        | resume transfer => exact (ends (op_of_conduct_resume told)).elim

/-- Every path prolongs the record. -/
theorem exists_recorded_of_path (recorded : Recorded routine host first world record middle between)
    (path : Path routine host middle between ops last ended) :
    ∃ longer, Recorded routine host first world longer last ended := by
  induction path generalizing record with
  | refl => exact ⟨record, recorded⟩
  | step fetched stepped _ ih =>
      obtain ⟨visit?, transfers⟩ := transfers_of_step stepped
      exact ih (.step recorded fetched stepped transfers)

end Routine

end Splice
