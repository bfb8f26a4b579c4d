import Splice.Proofs.Emulation.History
import Splice.Proofs.Weaving.Members

/-!
# Fault handlers

A fault clause is meant to run its handler for exceptions only. Every transfer that waits was
started by an earlier step, so a visit is either on the way of an exception that was raised in the
protected range of the visited region, or on the way of a `leave` of this range. A `leave` visits
the handlers of all clauses but catch clauses. The handler of a fault clause is therefore run for
exceptions only as long as no `leave` exits its protected range.
-/

namespace Splice

variable {σ : Type} {routine : Routine} {host : Host σ} {regions : List Region} {region : Region}
variable {isInstance : Value → TypeExpr → Bool} {frame next : Frame} {world between : σ}
variable {events earlier : List Event} {event : Event} {visit : Visit} {transfer : Resumption}
variable {conduct : Conduct} {arguments : List Value}

/-- Whether the step is a `leave` that exits the region's protected range. -/
def Event.exits (event : Event) (region : Region) : Bool :=
  match event.conduct with
  | .leave target => region.guarded.contains event.source && !region.guarded.contains target
  | _ => false

/-- The visit is on the way of an exception that one of the steps raised in the protected range of
the visited region. -/
def Visit.IsForException (visit : Visit) (events : List Event) : Prop :=
  ∃ exception origin next, visit.resumption = .unwind exception origin next ∧
    visit.region.guarded.contains origin ∧
      ∃ event ∈ events, event.conduct = .raise exception ∧ event.source = origin

namespace Resumption

/-- One of the steps has started the transfer, which may have come some way since. -/
def StartedIn (regions : List Region) (events : List Event) : Resumption → Prop
  | .leave rest target => ∃ event ∈ events, event.conduct = .leave target ∧
      rest <:+ regions.filter (·.isLeft event.source target)
  | .unwind exception origin _ => ∃ event ∈ events, event.conduct = .raise exception ∧
      event.source = origin

theorem StartedIn.cons (started : transfer.StartedIn regions events) (event : Event) :
    transfer.StartedIn regions (event :: events) := by
  cases transfer with
  | leave rest target =>
      obtain ⟨origin, member, started⟩ := started
      exact ⟨origin, List.mem_cons_of_mem event member, started⟩
  | unwind exception origin start =>
      obtain ⟨raised, member, started⟩ := started
      exact ⟨raised, List.mem_cons_of_mem event member, started⟩

/-- What is to follow a visit was started with the transfer that makes it. -/
theorem StartedIn.resumption (started : transfer.StartedIn regions events)
    (visits : transfer.visit? regions isInstance = some visit) :
    visit.resumption.StartedIn regions events := by
  cases transfer with
  | leave rest target =>
      obtain ⟨event, member, leaves, goesOn⟩ := started
      cases rest with
      | nil => cases visits
      | cons region rest =>
          cases visits
          exact ⟨event, member, leaves, (List.suffix_cons region rest).trans goesOn⟩
  | unwind exception origin start =>
      simp only [visit?] at visits
      split at visits
      · cases visits
      · split at visits
        · cases visits
        · cases visits
          exact started

end Resumption

section Steps

variable {rest : List Resumption} {target : Nat}

/-- A transfer that goes on is started by the step itself or has waited. -/
theorem Conduct.started_of_transfer?
    (starts : conduct.transfer? regions frame.position = some transfer)
    (waits : frame.pending = conduct.resumed ++ rest)
    (waiting : ∀ transfer ∈ frame.pending, transfer.StartedIn regions earlier) :
    transfer.StartedIn regions
      (.along regions isInstance frame.position target conduct :: earlier) := by
  cases conduct with
  | stay => cases starts
  | raise exception =>
      cases starts
      exact ⟨_, List.mem_cons_self, rfl, rfl⟩
  | leave target =>
      cases starts
      exact ⟨_, List.mem_cons_self, rfl, List.suffix_rfl⟩
  | resume transfer =>
      cases starts
      have member : transfer ∈ frame.pending := by
        rw [waits]
        exact List.mem_cons_self
      exact (waiting transfer member).cons _

/-- A step that goes on leaves only transfers waiting that were started by now. -/
theorem Conduct.Leads.started (leads : conduct.Leads regions isInstance frame next)
    (waiting : ∀ transfer ∈ frame.pending, transfer.StartedIn regions earlier) :
    ∀ transfer ∈ next.pending, transfer.StartedIn regions
      (.along regions isInstance frame.position next.position conduct :: earlier) := by
  cases leads with
  | stay same =>
      intro transfer member
      rw [same] at member
      exact (waiting transfer member).cons _
  | @transfer _ before _ transfer starts waits _ carried =>
      have started : transfer.StartedIn regions
          (.along regions isInstance frame.position next.position conduct :: earlier) :=
        Conduct.started_of_transfer? starts waits waiting
      have waitingThen : ∀ transfer ∈ before.pending, transfer.StartedIn regions
          (.along regions isInstance frame.position next.position conduct :: earlier) := by
        intro transfer member
        have waited : transfer ∈ frame.pending := by
          rw [waits]
          exact List.mem_append_right conduct.resumed member
        exact (waiting transfer waited).cons _
      cases comes : transfer.visit? regions isInstance with
      | none => rwa [carryOn_arrives carried comes]
      | some visit =>
          rw [(carryOn_visit carried comes).2]
          exact List.forall_mem_cons.mpr ⟨started.resumption comes, waitingThen⟩

theorem Conduct.Leads.started_of_visit? (leads : conduct.Leads regions isInstance frame next)
    (waiting : ∀ transfer ∈ frame.pending, transfer.StartedIn regions earlier)
    (visits : (Event.along regions isInstance frame.position next.position conduct).visit? =
      some visit) :
    next.position = visit.region.handler.start ∧ next.pending.head? = some visit.resumption ∧
      ∃ transfer : Resumption, transfer.visit? regions isInstance = some visit ∧
        transfer.StartedIn regions
          (.along regions isInstance frame.position next.position conduct :: earlier) := by
  cases leads with
  | stay => cases visits
  | @transfer _ before _ transfer starts waits _ carried =>
      rw [Event.visit?_along starts] at visits
      have ⟨here, pending⟩ := carryOn_visit carried visits
      refine ⟨here, by rw [pending, List.head?_cons], transfer, visits, ?_⟩
      exact Conduct.started_of_transfer? starts waits waiting

end Steps

theorem Routine.Past.started
    (past : routine.Past host (routine.start arguments) world events frame between) :
    ∀ transfer ∈ frame.pending, transfer.StartedIn routine.regions events := by
  induction past with
  | start => exact nofun
  | step _ _ stepped ih => exact (Routine.leads_of_step stepped).started ih

/-- A transfer visits the handlers of clauses that are no finally clauses for exceptions only, or it
is a `leave` of their protected range. -/
theorem Resumption.StartedIn.isForException_or_exits
    (started : transfer.StartedIn regions events)
    (visits : transfer.visit? regions isInstance = some visit) :
    visit.IsForException events ∨
      ∃ rest target, visit.resumption = .leave rest target ∧
        ∃ event ∈ events, event.exits visit.region := by
  have may := (Resumption.mayVisit_of_visit? visits).1
  cases transfer with
  | leave rest target =>
      obtain ⟨event, member, leaves, goesOn⟩ := started
      have isLeft := (List.mem_filter.mp (goesOn.subset may)).2
      have exits : event.exits visit.region := by
        simp only [Region.isLeft, Bool.and_assoc, Bool.and_eq_true] at isLeft
        simp only [Event.exits, leaves, Bool.and_eq_true]
        exact isLeft.2
      cases rest with
      | nil => cases visits
      | cons region rest =>
          cases visits
          exact .inr ⟨rest, target, rfl, event, member, exits⟩
  | unwind exception origin start =>
      obtain ⟨event, member, raises, here⟩ := started
      refine .inl ⟨exception, origin, ?_⟩
      simp only [visit?] at visits
      split at visits
      · cases visits
      next index _ =>
        split at visits
        · cases visits
        · cases visits
          exact ⟨index + 1, rfl, may.2.2, event, member, raises, here⟩

/-- The handler that a step visits runs for an exception or a `leave` of its protected range. -/
theorem Routine.Past.visited
    (past : routine.Past host (routine.start arguments) world (event :: earlier) frame between)
    (visits : event.visit? = some visit) :
    frame.position = visit.region.handler.start ∧
      frame.pending.head? = some visit.resumption ∧
      (visit.IsForException (event :: earlier) ∨
        ∃ rest target, visit.resumption = .leave rest target ∧
          ∃ step ∈ event :: earlier, step.exits visit.region) := by
  cases past with
  | step past _ stepped =>
      obtain ⟨here, pending, transfer, comes, started⟩ :=
        (Routine.leads_of_step stepped).started_of_visit? past.started visits
      exact ⟨here, pending, started.isForException_or_exits comes⟩

/-- As long as no `leave` has exited the protected range of a clause that is no finally clause, its
handler is visited only while an exception that was raised in this range propagates. A `leave`
visits handlers of finally clauses only. -/
theorem visits_fault_for_exception
    (past : routine.Past host (routine.start arguments) world (event :: earlier) frame between)
    (visits : event.visit? = some visit)
    (kept : visit.region.clause.isFinally = false →
      ∀ step ∈ event :: earlier, step.exits visit.region = false) :
    frame.position = visit.region.handler.start ∧
      frame.pending.head? = some visit.resumption ∧
      (visit.region.clause.isFinally = false → visit.IsForException (event :: earlier)) ∧
      ∀ rest target, visit.resumption = .leave rest target → visit.region.clause.isFinally := by
  obtain ⟨here, pending, reason⟩ := past.visited visits
  refine ⟨here, pending, ?_, ?_⟩
  · intro unfinally
    refine reason.resolve_right ?_
    intro ⟨_, _, _, step, member, exits⟩
    exact Bool.false_ne_true ((kept unfinally step member).symm.trans exits)
  · intro rest target leaves
    rcases reason with ⟨_, _, _, unwinds, _⟩ | ⟨_, _, _, step, member, exits⟩
    · cases leaves.symm.trans unwinds
    · by_contra unfinally
      rw [Bool.not_eq_true] at unfinally
      exact Bool.false_ne_true ((kept unfinally step member).symm.trans exits)

namespace Sample

/-- A fault handler for an exception. Another way leads out of its protected range by a `leave`. -/
def faulting : Routine where
  name := "M"
  isVoid := true
  body :=
    { Body.empty.appendAll [.loadArgument 0, ⟨.brfalse, .target ⟨4⟩⟩, ⟨.ldstr, .string "lost"⟩,
        ⟨.throw, .none⟩, .leaveTo ⟨6⟩, ⟨.endfinally, .none⟩, ⟨.ret, .none⟩] with
      clauses := [⟨4, ⟨0⟩, ⟨5⟩, ⟨5⟩, ⟨6⟩, none⟩] }
  regions := [⟨⟨4, ⟨0⟩, ⟨5⟩, ⟨5⟩, ⟨6⟩, none⟩, ⟨0, 5⟩, ⟨5, 6⟩⟩]

end Sample

/-- The exception is on its way when the handler is visited. -/
theorem visits_fault_for_exception_thrown :
    ∃ event earlier frame visit, Sample.faulting.Past Sample.host
        (Sample.faulting.start [.int32 1]) 0 (event :: earlier) frame 0 ∧
      event.visit? = some visit ∧ visit.region.clause.isFinally = false ∧
      visit.IsForException (event :: earlier) := by
  let first := Sample.faulting.start [.int32 1]
  let thrown : Value := .string "lost"
  have atStart : Sample.faulting.Past Sample.host first 0 [] first 0 := .start
  have asked : Sample.faulting.Past Sample.host first 0 _
      { first with stack := [.int32 1], position := 1 } 0 := atStart.step (by rfl) (by rfl)
  have chosen : Sample.faulting.Past Sample.host first 0 _ { first with position := 2 } 0 :=
    asked.step (by rfl) (by rfl)
  have loaded : Sample.faulting.Past Sample.host first 0 _
      { first with stack := [thrown], position := 3 } 0 := chosen.step (by rfl) (by rfl)
  have visiting : Sample.faulting.Past Sample.host first 0 _
      { first with pending := [.unwind thrown 3 1], position := 5 } 0 :=
    loaded.step (by rfl) (by rfl)
  have visits := visits_fault_for_exception visiting rfl fun _ => by decide
  exact ⟨_, _, _, _, visiting, rfl, by decide, visits.2.2.1 (by decide)⟩

/-- The `leave` visits the handler of the fault clause, though nothing is thrown. -/
theorem visits_fault_on_leave :
    Sample.faulting.body.check = .ok () ∧
      Sample.faulting.body.HasRegions Sample.faulting.regions ∧
      ∃ event earlier frame visit, Sample.faulting.Past Sample.host
          (Sample.faulting.start [.null]) 0 (event :: earlier) frame 0 ∧
        event.visit? = some visit ∧ visit.region.clause.flags = 4 ∧
        visit.region.clause.isFinally = false ∧ visit.resumption = .leave [] 6 ∧
        ∀ step ∈ event :: earlier, ∀ exception, step.conduct ≠ .raise exception := by
  have has : Sample.faulting.body.HasRegions Sample.faulting.regions :=
    Body.mapM_region_eq_ok_iff.mp (by rfl)
  let first := Sample.faulting.start [.null]
  have atStart : Sample.faulting.Past Sample.host first 0 [] first 0 := .start
  have asked : Sample.faulting.Past Sample.host first 0 _
      { first with stack := [.null], position := 1 } 0 := atStart.step (by rfl) (by rfl)
  have chosen : Sample.faulting.Past Sample.host first 0 _ { first with position := 4 } 0 :=
    asked.step (by rfl) (by rfl)
  have visiting : Sample.faulting.Past Sample.host first 0 _
      { first with pending := [.leave [] 6], position := 5 } 0 := chosen.step (by rfl) (by rfl)
  refine ⟨by rfl, has, _, _, _, _, visiting, rfl, rfl, by decide, rfl, ?_⟩
  intro step member exception raises
  have listed : Conduct.raise exception ∈ [.leave 6, .stay, .stay] :=
    raises ▸ List.mem_map_of_mem member
  simp at listed

end Splice
