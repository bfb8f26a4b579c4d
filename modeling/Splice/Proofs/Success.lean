import Mathlib.Data.List.Forall2

/-!
# Success

Laws that turn the success of a computation that may fail into statements about its parts.
-/

namespace Splice

variable {ε δ α β : Type}

@[simp] theorem bind_eq_ok_iff {computation : Except ε α} {next : α → Except ε β} {result : β} :
    (computation >>= next) = .ok result ↔
      ∃ value, computation = .ok value ∧ next value = .ok result := by
  cases computation <;> simp [bind, Except.bind]

theorem bind_eq_error_iff {computation : Except ε α} {next : α → Except ε β} {error : ε} :
    (computation >>= next) = .error error ↔ computation = .error error ∨
      ∃ value, computation = .ok value ∧ next value = .error error := by
  cases computation <;> simp [bind, Except.bind]

/-- Success with a value that passes a test, as it can be decided without equality of values. -/
theorem exists_eq_ok_of_any {computation : Except ε α} {test : α → Bool}
    (succeeds : computation.toOption.any test = true) :
    ∃ value, computation = .ok value ∧ test value = true := by
  cases computation with
  | error error => cases succeeds
  | ok value => exact ⟨value, rfl, succeeds⟩

/-- A check that succeeds lets the rest decide. -/
theorem check_bind_eq_ok_iff {check : Except ε Unit} {next : Unit → Except ε β} {result : β} :
    (check >>= next) = .ok result ↔ check = .ok () ∧ next () = .ok result := by
  cases check <;> simp [bind, Except.bind]

@[simp] theorem pure_eq_ok_iff {value result : α} :
    (pure value : Except ε α) = .ok result ↔ value = result := by
  simp [pure, Except.pure]

@[simp] theorem ok_bind {value : α} {next : α → Except ε β} :
    ((Except.ok value : Except ε α) >>= next) = next value := rfl

@[simp] theorem mapError_eq_ok_iff {computation : Except ε α} {change : ε → δ} {result : α} :
    computation.mapError change = .ok result ↔ computation = .ok result := by
  cases computation <;> simp [Except.mapError]

@[simp] theorem map_eq_ok_iff {computation : Except ε α} {change : α → β} {result : β} :
    computation.map change = .ok result ↔
      ∃ value, computation = .ok value ∧ change value = result := by
  cases computation <;> simp [Except.map]

/-- A check of every element succeeds when it succeeds on each of them. -/
theorem forM_eq_ok_iff {values : List α} {check : α → Except ε Unit} :
    values.forM check = .ok () ↔ ∀ value ∈ values, check value = .ok () := by
  induction values with
  | nil => simp [List.forM, pure, Except.pure]
  | cons value rest ih =>
      rw [List.forM, check_bind_eq_ok_iff, List.forall_mem_cons, ih]

theorem mapM_eq_ok_iff {values : List α} {results : List β} {image : α → Except ε β} :
    values.mapM image = .ok results ↔
      List.Forall₂ (fun value result => image value = .ok result) values results := by
  induction values generalizing results with
  | nil => simp [pure, Except.pure, eq_comm]
  | cons value rest ih =>
      rw [List.mapM_cons, List.forall₂_cons_left_iff]
      constructor
      · intro succeeded
        simp only [bind_eq_ok_iff, pure_eq_ok_iff] at succeeded
        obtain ⟨result, first, others, mapped, rfl⟩ := succeeded
        exact ⟨result, others, first, ih.mp mapped, rfl⟩
      · rintro ⟨result, others, first, mapped, rfl⟩
        simp [first, ih.mpr mapped]

/-- A computation on every element succeeds when it succeeds on each of them. -/
theorem exists_mapM_eq_ok_iff {values : List α} {image : α → Except ε β} :
    (∃ results, values.mapM image = .ok results) ↔
      ∀ value ∈ values, ∃ result, image value = .ok result := by
  simp only [mapM_eq_ok_iff]
  induction values with
  | nil => exact ⟨fun _ => nofun, fun _ => ⟨[], .nil⟩⟩
  | cons value rest ih =>
      rw [List.forall_mem_cons, ← ih]
      simp only [List.forall₂_cons_left_iff]
      constructor
      · rintro ⟨_, result, others, first, mapped, rfl⟩
        exact ⟨⟨result, first⟩, others, mapped⟩
      · rintro ⟨⟨result, first⟩, others, mapped⟩
        exact ⟨_, result, others, first, mapped, rfl⟩

/-- Where a computation on every element fails, it fails on one of them. -/
theorem mapM_eq_error {values : List α} {image : α → Except ε β} {error : ε}
    (failed : values.mapM image = .error error) : ∃ value ∈ values, image value = .error error := by
  induction values with
  | nil => cases failed
  | cons value rest ih =>
      rw [List.mapM_cons, bind_eq_error_iff] at failed
      rcases failed with failed | ⟨_, _, failed⟩
      · exact ⟨value, List.mem_cons_self, failed⟩
      · rw [bind_eq_error_iff] at failed
        rcases failed with failed | ⟨_, _, failed⟩
        · obtain ⟨other, member, failed⟩ := ih failed
          exact ⟨other, List.mem_cons_of_mem value member, failed⟩
        · cases failed

end Splice
