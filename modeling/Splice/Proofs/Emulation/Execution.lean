import Splice.Proofs.Code.WellFormed
import Splice.Proofs.Emulation.Path

/-!
# Executions

The execution of a method with a body is a path from the start of its routine, followed by one halt.
-/

namespace Splice

variable {σ : Type} {host : Host σ} {emulator after : Emulator} {method : Method} {body : Body}
variable {receiver : Option Value} {arguments : List Value} {regions : List Region}
variable {world between ended : σ} {result : Except Fault Completion} {last : Frame}
variable {ops final : List Op} {left count : Nat}

/-- The routine that runs a body of the method. -/
def Method.routineOf (method : Method) (body : Body) (regions : List Region) : Routine :=
  ⟨method.name, method.isVoid, body, regions⟩

/-- The frame in which an execution of the method starts. -/
def Method.startOf (method : Method) (body : Body) (regions : List Region)
    (receiver : Option Value) (arguments : List Value) : Frame :=
  (method.routineOf body regions).start (receiver.toList ++ arguments)

namespace Routine

theorem ofBody_of_hasRegions (has : body.HasRegions regions) :
    ofBody method.name method.isVoid body = .ok (method.routineOf body regions) := by
  rw [ofBody, Body.mapM_region_eq_ok_iff.mpr has, ok_bind]
  rfl

/-- The clauses of a body are resolved unless one of their boundaries is not placed. -/
theorem hasRegions_or_notPlaced (body : Body) :
    (∃ regions, body.HasRegions regions) ∨
      ∃ id, body.clauses.mapM (region body) = .error (.notPlaced id) := by
  cases resolved : body.clauses.mapM (region body) with
  | ok regions => exact .inl ⟨regions, Body.mapM_region_eq_ok_iff.mp resolved⟩
  | error fault =>
      right
      have located : ∀ {id fault}, body.locate id = .error fault → ∃ id, fault = .notPlaced id := by
        intro id fault failed
        simp only [Body.locate] at failed
        split at failed
        · cases failed
        · cases failed
          exact ⟨id, rfl⟩
      have failed : ∃ clause, region body clause = .error fault := by
        obtain ⟨clause, _, failed⟩ := mapM_eq_error resolved
        exact ⟨clause, failed⟩
      obtain ⟨clause, failed⟩ := failed
      have unplaced : ∃ id, fault = .notPlaced id := by
        simp only [region, bind_eq_error_iff] at failed
        rcases failed with failed | ⟨_, _, failed | ⟨_, _, failed | ⟨_, _, failed | ⟨_, _, failed⟩⟩⟩⟩
        · exact located failed
        · exact located failed
        · exact located failed
        · exact located failed
        · cases failed
      obtain ⟨id, rfl⟩ := unplaced
      exact ⟨id, rfl⟩

end Routine

namespace Emulator

/-- A path from the start and a halt within the budget make up an execution. -/
theorem execute_of_path (bodied : method.body = some body) (has : body.HasRegions regions)
    (path : (method.routineOf body regions).Path host
      (method.startOf body regions receiver arguments) world ops last between)
    (halts : (method.routineOf body regions).Halts host emulator.maxSteps left last between result
      final count ended) (within : ops.length + left = emulator.maxSteps) :
    emulator.execute host method receiver arguments world =
      (result, { emulator with steps := ops.length + count, trace := (ops ++ final).toArray },
        ended) := by
  have ran : (method.routineOf body regions).run host emulator.maxSteps (ops.length + left)
      (method.startOf body regions receiver arguments) 0 #[] world = _ :=
    Routine.run_of_path path 0 #[]
  rw [within, Routine.run_of_halts halts] at ran
  rw [execute]
  simp only [bodied, Routine.ofBody_of_hasRegions has]
  rw [Method.startOf] at ran
  simp [ran]

/-- Every execution of a method with a body goes along a path from the start and halts. -/
theorem exists_path_of_execute (bodied : method.body = some body) (has : body.HasRegions regions)
    (executed : emulator.execute host method receiver arguments world = (result, after, ended)) :
    ∃ ops last between left final count,
      (method.routineOf body regions).Path host
        (method.startOf body regions receiver arguments) world ops last between ∧
      (method.routineOf body regions).Halts host emulator.maxSteps left last between result
        final count ended ∧
      ops.length + left = emulator.maxSteps ∧
      after = { emulator with
        steps := ops.length + count
        trace := (ops ++ final).toArray } := by
  obtain ⟨ops, last, between, left, result', final, count, ended', path, within, halts⟩ :=
    (method.routineOf body regions).exists_path_halts host emulator.maxSteps emulator.maxSteps
      (method.startOf body regions receiver arguments) world
  have same := execute_of_path bodied has path halts within
  rw [executed, Prod.mk.injEq, Prod.mk.injEq] at same
  obtain ⟨rfl, rfl, rfl⟩ := same
  exact ⟨ops, last, between, left, final, count, path, halts, within, rfl⟩

/-- A run that does not fault for an unplaced instruction has resolved the clauses. -/
theorem hasRegions_of_execute (bodied : method.body = some body)
    (executed : emulator.execute host method receiver arguments world = (result, after, ended))
    (ran : ∀ id, result ≠ .error (.notPlaced id)) : ∃ regions, body.HasRegions regions := by
  rcases Routine.hasRegions_or_notPlaced body with has | ⟨id, failed⟩
  · exact has
  · simp only [execute, bodied, Routine.ofBody, failed] at executed
    exact absurd (Prod.mk.inj executed).1.symm (ran id)

end Emulator

end Splice
