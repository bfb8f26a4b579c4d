import Splice.Proofs.Emulation.Contact
import Splice.Proofs.Emulation.Execution
import Splice.Proofs.Weaving.Members

/-!
# Budgets

A step budget does nothing but cut a run short. A run that ends for a reason of its own ends so under
every budget that its steps fit in. Under a smaller one it takes the same steps, as many as the
budget allows. What an earlier run has left in the record has no part in a run.
-/

namespace Splice

variable {σ : Type} {routine : Routine} {host : Host σ} {limit budget count : Nat}
variable {first last frame : Frame} {ops final : List Op} {result : Except Fault Completion}

/-- The run ends for a reason of its own and not because a budget is spent. -/
def IsSettled : Except Fault Completion → Prop
  | .error (.stepLimit _) => False
  | _ => True

/-- The run completes or has spent a budget. Any other fault may come before an instruction is
fetched, and the step that looks for it is not traced. -/
def IsTraced : Except Fault Completion → Prop
  | .ok _ => True
  | .error (.stepLimit _) => True
  | .error _ => False

namespace Routine

/-! ## Parts of a path -/

theorem Path.split {world ended : σ} (path : Path routine host first world ops last ended)
    (count : Nat) :
    ∃ middle between, Path routine host first world (ops.take count) middle between ∧
      Path routine host middle between (ops.drop count) last ended := by
  induction path generalizing count with
  | refl frame world => exact ⟨frame, world, by simpa using .refl _ _, by simpa using .refl _ _⟩
  | @step first _ _ world _ _ _ _ _ fetched stepped rest ih =>
      cases count with
      | zero => exact ⟨first, world, .refl _ _, .step fetched stepped rest⟩
      | succ count =>
          obtain ⟨middle, between, front, back⟩ := ih count
          exact ⟨middle, between, .step fetched stepped front, back⟩

variable {world ended : σ × List Contact} {id : InstrId} {instruction : Instruction}
variable {answer : Except Fault Turn}

/-- The log of a step goes on from the log before it. -/
theorem log_prefix_of_step
    (stepped : routine.step host.logged frame id instruction world = (answer, ended)) :
    world.2 <+: ended.2 := by
  obtain ⟨calls, logged⟩ := routine.step_logged host frame id instruction world.1
  have same := stepped.symm.trans (logged world.2)
  rw [Prod.mk.injEq] at same
  rw [same.2]
  exact List.prefix_append world.2 calls

theorem Path.log_prefix (path : Path routine host.logged first world ops last ended) :
    world.2 <+: ended.2 := by
  induction path with
  | refl => exact List.prefix_refl _
  | step _ stepped _ ih => exact (log_prefix_of_step stepped).trans ih

theorem Halts.log_prefix
    (halts : Halts routine host.logged limit budget last world result final count ended) :
    world.2 <+: ended.2 := by
  cases halts with
  | spent => exact List.prefix_refl _
  | ranPast => exact List.prefix_refl _
  | missing => exact List.prefix_refl _
  | faulted _ stepped => exact log_prefix_of_step stepped
  | finished _ stepped => exact log_prefix_of_step stepped

/-! ## The last step -/

theorem Halts.count_le {world ended : σ}
    (halts : Halts routine host limit budget last world result final count ended) :
    count ≤ budget := by
  cases halts with
  | spent => exact Nat.le_refl 0
  | _ => exact Nat.le_add_left 1 _

theorem Halts.length_eq {world ended : σ}
    (halts : Halts routine host limit budget last world result final count ended)
    (traced : IsTraced result) : final.length = count := by
  cases halts with
  | spent => rfl
  | ranPast => exact traced.elim
  | missing => exact traced.elim
  | faulted => rfl
  | finished => rfl

/-- A run that ends for a reason of its own takes one more step, whatever else is left. -/
theorem Halts.settled {world ended : σ}
    (halts : Halts routine host limit budget last world result final count ended)
    (settled : IsSettled result) :
    count = 1 ∧ ∀ limit budget,
      Halts routine host limit (budget + 1) last world result final 1 ended := by
  cases halts with
  | spent => exact settled.elim
  | ranPast nothing => exact ⟨rfl, fun _ _ => .ranPast nothing⟩
  | missing placed nothing => exact ⟨rfl, fun _ _ => .missing placed nothing⟩
  | faulted fetched stepped => exact ⟨rfl, fun _ _ => .faulted fetched stepped⟩
  | finished fetched stepped => exact ⟨rfl, fun _ _ => .finished fetched stepped⟩

end Routine

namespace Emulator

/-! ## Executions under different budgets -/

variable {method : Method} {body : Body} {receiver : Option Value} {arguments : List Value}
variable {emulator earlier after : Emulator} {world ended : σ} {calls : List Contact}

/-- What an execution of a method says about its executions under other budgets, and about the record
that it leaves. -/
structure Foretells (emulator : Emulator) (host : Host σ) (method : Method)
    (receiver : Option Value) (arguments : List Value) (world : σ)
    (result : Except Fault Completion) (after : Emulator) (ended : σ) : Prop where
  within : after.steps ≤ emulator.maxSteps
  traced : IsTraced result → after.trace.size = after.steps
  /-- The record of an earlier run is forgotten. -/
  fresh : ∀ earlier : Emulator, earlier.maxSteps = emulator.maxSteps →
    earlier.execute host method receiver arguments world = (result, after, ended)
  enough : IsSettled result → ∀ roomy : Emulator, after.steps ≤ roomy.maxSteps →
    roomy.execute host method receiver arguments world =
        (result, ⟨roomy.maxSteps, after.steps, after.trace⟩, ended) ∧
      roomy.contacts host method receiver arguments world =
        emulator.contacts host method receiver arguments world
  short : IsSettled result → ∀ tight : Emulator, tight.maxSteps < after.steps →
    ∃ cut, tight.execute host method receiver arguments world =
        (.error (.stepLimit tight.maxSteps),
          ⟨tight.maxSteps, tight.maxSteps, after.trace.take tight.maxSteps⟩, cut) ∧
      tight.contacts host method receiver arguments world <+:
        emulator.contacts host method receiver arguments world

/-- Only the budget of an emulator has a part in the execution of a body. -/
theorem execute_congr (bodied : method.body = some body)
    (same : earlier.maxSteps = emulator.maxSteps) :
    earlier.execute host method receiver arguments world =
      emulator.execute host method receiver arguments world := by
  simp only [execute, bodied, same]

/-- Where a clause cannot be resolved, no step is taken. -/
theorem execute_of_unresolved {fault : Fault} (bodied : method.body = some body)
    (unresolved : body.clauses.mapM (Routine.region body) = .error fault) :
    emulator.execute host method receiver arguments world =
      (.error fault, ⟨emulator.maxSteps, 0, #[]⟩, world) := by
  simp only [execute, bodied, Routine.ofBody, unresolved]
  rfl

/-- An execution is told by the one that is logged. -/
theorem execute_of_logged
    (ran : emulator.execute host.logged method receiver arguments (world, []) =
      (result, after, ended, calls)) :
    emulator.execute host method receiver arguments world = (result, after, ended) ∧
      emulator.contacts host method receiver arguments world = calls := by
  have logged := emulator.execute_logged host method receiver arguments world []
  rw [ran] at logged
  simp only [List.nil_append, Prod.mk.injEq] at logged
  obtain ⟨sameResult, sameRecord, sameEnded, sameCalls⟩ := logged
  exact ⟨Prod.ext sameResult.symm (Prod.ext sameRecord.symm sameEnded.symm), sameCalls.symm⟩

/-- A budget that the steps of an execution fit in changes nothing about it. A smaller one ends it
when it is spent, after the same operations and with the first of the same calls. -/
theorem execute_foretells (bodied : method.body = some body)
    (executed : emulator.execute host method receiver arguments world = (result, after, ended)) :
    emulator.Foretells host method receiver arguments world result after ended := by
  have fresh : ∀ earlier : Emulator, earlier.maxSteps = emulator.maxSteps →
      earlier.execute host method receiver arguments world = (result, after, ended) :=
    fun earlier same => (execute_congr bodied same).trans executed
  have logged : emulator.execute host.logged method receiver arguments (world, []) =
      (result, after, ended, emulator.contacts host method receiver arguments world) := by
    rw [execute_logged, executed]
    rfl
  rcases Routine.hasRegions_or_notPlaced body with ⟨regions, has⟩ | ⟨id, unresolved⟩
  · obtain ⟨ops, last, between, left, final, count, path, halts, within, rfl⟩ :=
      exists_path_of_execute bodied has logged
    have counted := halts.count_le
    refine ⟨by dsimp only; omega, fun traced => ?_, fresh, fun settled roomy fits => ?_,
      fun settled tight less => ?_⟩
    · have length := halts.length_eq traced
      simp [length]
    · obtain ⟨rfl, again⟩ := halts.settled settled
      obtain ⟨spare, room⟩ := Nat.exists_eq_add_of_le fits
      have budget : ops.length + (spare + 1) = roomy.maxSteps := by dsimp only at room; omega
      exact execute_of_logged (execute_of_path bodied has path (again _ spare) budget)
    · obtain ⟨rfl, _⟩ := halts.settled settled
      obtain ⟨middle, cut, front, back⟩ := path.split tight.maxSteps
      have inside : tight.maxSteps ≤ ops.length := Nat.le_of_lt_succ less
      have length : (ops.take tight.maxSteps).length = tight.maxSteps :=
        List.length_take_of_le inside
      have ran := execute_of_path bodied has front (.spent middle cut) length
      obtain ⟨executedTight, contacts⟩ := execute_of_logged ran
      refine ⟨cut.1, executedTight.trans ?_, ?_⟩
      · simp [length, List.take_append_of_le_length inside]
      · rw [contacts]
        exact back.log_prefix.trans halts.log_prefix
  · have unlogged : ∀ any : Emulator,
        any.contacts host method receiver arguments world = [] := fun any =>
      (execute_of_logged (execute_of_unresolved bodied unresolved)).2
    have same := executed.symm.trans (execute_of_unresolved bodied unresolved)
    simp only [Prod.mk.injEq] at same
    obtain ⟨rfl, rfl, rfl⟩ := same
    refine ⟨Nat.zero_le _, fun traced => traced.elim, fresh, fun _ roomy _ => ?_,
      fun _ _ less => absurd less (Nat.not_lt_zero _)⟩
    exact ⟨execute_of_unresolved bodied unresolved, by rw [unlogged, unlogged]⟩

/-- A constructed exception is thrown in two steps, of which the host sees the first. -/
theorem execute_foretells_throw :
    ({} : Emulator).Foretells Sample.host
      (Sample.method .void [⟨.newobj, .member ⟨Sample.exceptionType, ".ctor", [], .void, true⟩⟩,
        ⟨.throw, .none⟩])
      none [] 3 (.ok (.threw (.object 3 "System.Exception")))
      { steps := 2, trace := #[.newobj, .throw] } 4 :=
  execute_foretells rfl (by rfl)

end Emulator

end Splice
