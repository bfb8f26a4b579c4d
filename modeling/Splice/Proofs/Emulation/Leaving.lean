import Splice.Proofs.Emulation.Dispatch

/-!
# Leaving protected ranges

A `leave` determines at once which finally handlers it is to run. They are run one after the other,
each from the `endfinally` of the one before, and may contain transfers of control of their own.
Only when the last of them has ended does the `leave` arrive at its target.
-/

namespace Splice

variable {σ : Type} {routine : Routine} {host : Host σ} {regions : List Region} {region : Region}
variable {body : Body} {waiting : List Resumption} {frame arrived : Frame} {world ended : σ}
variable {stays : List (Stay σ)} {source target : Nat} {id destination : InstrId}

/-- There are no filters and no fault clauses. -/
def Body.HasFinalliesOnly (body : Body) : Prop :=
  ∀ clause ∈ body.clauses, clause.isCatch ∨ clause.isFinally

/-- A `leave` of the frame passes through the handlers of the stays, one after the other, and
arrives at its target. -/
structure Routine.LeavesTo (routine : Routine) (host : Host σ) (frame : Frame) (target : Nat)
    (world : σ) (stays : List (Stay σ)) (arrived : Frame) (ended : σ) : Prop where
  proceeds : routine.Proceeds host frame.pending (.goOn (frame.leave routine.regions target)) world
    stays (.goOn arrived) ended
  /-- The stays are those in the finally regions that are left, in the order of the table. -/
  visits : stays.map (·.region) = routine.regions.filter fun region =>
    region.clause.isFinally && region.guarded.contains frame.position &&
      !region.guarded.contains target
  spares : ∀ region ∈ routine.regions, region.clause.isCatch ∨
    region.guarded.contains frame.position ∧ region.guarded.contains target →
      region ∉ stays.map (·.region)
  outward : (stays.map (·.region)).Pairwise fun inner outer =>
    inner.guarded.isWithin outer.guarded
  position : arrived.position = target
  stack : arrived.stack = []
  pending : arrived.pending = frame.pending

/-- A run that executes the `leave` arrives at its target. -/
theorem Routine.LeavesTo.path
    (leaves : routine.LeavesTo host frame target world stays arrived ended) :
    ∃ ops, Path routine host (frame.leave routine.regions target) world ops arrived ended :=
  leaves.proceeds.path

/-- The handlers of a list of regions are run in the order of the list. -/
theorem proceeds_runHandlers (rest : List Region) (waits : frame.pending = waiting)
    (conclude : routine.AllConclude host waiting (.goOn (frame.runHandlers target rest)) world) :
    ∃ stays arrived ended,
      routine.Proceeds host waiting (.goOn (frame.runHandlers target rest)) world stays
        (.goOn arrived) ended ∧
      stays.map (·.region) = rest ∧
      arrived.position = target ∧ arrived.stack = [] ∧ arrived.pending = waiting := by
  induction rest generalizing frame world with
  | nil => exact ⟨[], _, world, .done _ _, rfl, rfl, rfl, waits⟩
  | cons region rest ih =>
      have suspends : (frame.runHandlers target (region :: rest)).pending =
          .leave rest target :: waiting := congrArg _ waits
      obtain ⟨left, after, passes, conclude⟩ := conclude.first region rfl rfl suspends
      obtain ⟨stays, arrived, ended, proceeds, same, position, stack, pending⟩ := ih rfl conclude
      exact ⟨⟨region, _, world, left, after⟩ :: stays, arrived, ended, .through passes proceeds,
        congrArg _ same, position, stack, pending⟩

theorem Clause.isFinally_eq_not_isCatch {clause : Clause}
    (kind : clause.isCatch ∨ clause.isFinally) :
    clause.isFinally = !clause.isCatch := by
  cases isCatch : clause.isCatch with
  | true =>
      have plain : clause.flags = 0 := beq_iff_eq.mp isCatch
      simp [isFinally, plain]
  | false => simpa [isCatch] using kind

/-- Of the regions with catch and finally handlers, a `leave` runs the finally handlers that it
leaves the protected range of. -/
theorem Body.HasFinalliesOnly.isLeft_eq (finallies : body.HasFinalliesOnly)
    (has : body.HasRegions regions) (listed : region ∈ regions) :
    region.isLeft source target =
      (region.clause.isFinally && region.guarded.contains source &&
        !region.guarded.contains target) := by
  have clause : region.clause ∈ body.clauses := has.clauses ▸ List.mem_map_of_mem listed
  rw [Clause.isFinally_eq_not_isCatch (finallies _ clause), Region.isLeft]

/-- The target of a placed branch is placed. -/
theorem Body.WellFormed.exists_position?_target (wellFormed : routine.body.WellFormed regions)
    {position : Nat} {instruction : Instruction}
    (fetched : routine.fetch? position = some (id, instruction))
    (targets : instruction.target? = some destination) :
    ∃ target, routine.body.position? destination = some target := by
  rw [Routine.fetch?_eq_getElem? wellFormed.places] at fetched
  have ordered := wellFormed.targets _ (List.mem_of_getElem? fetched) destination targets
  exact Option.isSome_iff_exists.mp (List.isSome_idxOf?.mpr ordered)

/-- A `leave` runs exactly the finally handlers whose protected range it leaves, from the inside
out, before it arrives at its target. -/
theorem leave_visits_outward (checked : routine.body.check = .ok ())
    (has : routine.body.HasRegions routine.regions)
    (innerFirst : Region.InnerFirst routine.regions) (finallies : routine.body.HasFinalliesOnly)
    (fetched : routine.fetch? frame.position = some (id, .leaveTo destination)) :
    ∃ target, routine.body.position? destination = some target ∧
      routine.step host frame id (.leaveTo destination) world =
        (.ok (.goOn (frame.leave routine.regions target)), world) ∧
      (routine.AllConclude host frame.pending (.goOn (frame.leave routine.regions target)) world →
        ∃ stays arrived ended, routine.LeavesTo host frame target world stays arrived ended) := by
  obtain ⟨_, wellFormed⟩ := Body.check_eq_ok_iff.mp checked
  obtain rfl := has.unique wellFormed.hasRegions
  obtain ⟨target, placed⟩ := wellFormed.exists_position?_target fetched rfl
  refine ⟨target, placed, Routine.step_leave (Body.locate_eq_ok_iff.mpr placed), ?_⟩
  intro conclude
  obtain ⟨stays, arrived, ended, proceeds, same, position, stack, pending⟩ :=
    proceeds_runHandlers _ rfl conclude
  have visits := same.trans (List.filter_congr fun region listed =>
    finallies.isLeft_eq has listed)
  refine ⟨stays, arrived, ended, proceeds, visits, ?_, ?_, position, stack, pending⟩
  · rw [same]
    rintro region _ (isCatch | ⟨_, inside⟩) member
    · simp [Region.isLeft, isCatch] at member
    · simp [Region.isLeft, inside] at member
  · have around : routine.regions.filter (·.isLeft frame.position target) =
        (routine.regions.filter (·.guarded.contains frame.position)).filter fun region =>
          !region.clause.isCatch && !region.guarded.contains target := by
      rw [List.filter_filter]
      congr 1
      funext region
      rw [Region.isLeft, Bool.and_right_comm]
    rw [same, around]
    exact (wellFormed.outward innerFirst frame.position).sublist List.filter_sublist

namespace Sample

/-- Two finally handlers around a `leave`. A part of the outer handler is protected by a third. -/
def leaving : Routine where
  name := "M"
  isVoid := true
  body :=
    { Body.empty.appendAll [.leaveTo ⟨6⟩, ⟨.endfinally, .none⟩, .leaveTo ⟨4⟩, ⟨.endfinally, .none⟩,
        ⟨.nop, .none⟩, ⟨.endfinally, .none⟩, ⟨.ret, .none⟩] with
      clauses := [.finishing ⟨0⟩ ⟨1⟩ ⟨2⟩, .finishing ⟨2⟩ ⟨3⟩ ⟨4⟩, .finishing ⟨0⟩ ⟨2⟩ ⟨6⟩] }
  regions :=
    [⟨.finishing ⟨0⟩ ⟨1⟩ ⟨2⟩, ⟨0, 1⟩, ⟨1, 2⟩⟩, ⟨.finishing ⟨2⟩ ⟨3⟩ ⟨4⟩, ⟨2, 3⟩, ⟨3, 4⟩⟩,
      ⟨.finishing ⟨0⟩ ⟨2⟩ ⟨6⟩, ⟨0, 2⟩, ⟨2, 6⟩⟩]

end Sample

/-- The first `leave` runs the inner and the outer handler, in which another one runs the third. -/
theorem leave_visits_outward_nested :
    ∃ stays arrived ended,
      Sample.leaving.LeavesTo Sample.host (Sample.leaving.start []) 6 0 stays arrived ended := by
  have has : Sample.leaving.body.HasRegions Sample.leaving.regions :=
    Body.mapM_region_eq_ok_iff.mp (by rfl)
  have innerFirst : Region.InnerFirst Sample.leaving.regions := by
    rw [Region.InnerFirst]
    decide
  have finallies : Sample.leaving.body.HasFinalliesOnly := by
    rw [Body.HasFinalliesOnly]
    decide
  have fetched : Sample.leaving.fetch? (Sample.leaving.start []).position =
      some (⟨0⟩, .leaveTo ⟨6⟩) := by rfl
  obtain ⟨target, placed, _, leaves⟩ :=
    leave_visits_outward (by rfl) has innerFirst finallies fetched
  obtain rfl : 6 = target := Option.some.inj placed
  apply leaves
  apply Routine.AllConclude.enter
  · exact .here (by rfl) (by rfl)
  · rfl
  · rfl
  apply Routine.AllConclude.enter
  · apply Routine.Concludes.step (by rfl) (by decide) (by rfl)
    apply Routine.Concludes.step (by rfl) (by decide) (by rfl)
    exact .step (by rfl) (by decide) (by rfl) (.here (by rfl) (by rfl))
  · rfl
  · rfl
  exact .arrived (by rfl)

end Splice
