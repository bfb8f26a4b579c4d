import Splice.Proofs.Emulation.Contact
import Splice.Proofs.Weaving.Guarded
import Splice.Proofs.Weaving.Members

/-!
# Transparency of guards

A guard does not show in a run that gives it nothing to report. Such a run of the guarded method
takes the same steps, asks the same of the host and ends in the same way.
-/

namespace Splice

variable {σ : Type} {host : Host σ} {emulator after : Emulator} {method woven : Method}
variable {body guarded : Body} {exception : TypeExpr} {handler : List Instruction}
variable {first : InstrId} {code : List Placed} {regions : List Region}
variable {receiver : Option Value} {arguments : List Value} {world ended : σ}
variable {result : Except Fault Completion}

/-- A guard against a kind of exception has nothing to report when the run returns, when it throws
an exception of another kind and when its budget is spent. -/
def Host.HasNothingToReport (host : Host σ) (exception : TypeExpr) (ended : σ) :
    Except Fault Completion → Prop
  | .ok (.returned _) => True
  | .ok (.threw thrown) => host.isInstance ended thrown exception = false
  | .error (.stepLimit _) => True
  | .error _ => False

namespace Body.IsGuarded

theorem encloses (isGuarded : guarded.IsGuarded body method exception handler first code)
    (handles : handler ≠ []) (regions : List Region) :
    (method.routineOf guarded (body.guardRegions exception handler first regions)).Encloses id
      (body.guardRegion exception handler first) (method.routineOf body regions) := by
  apply (isGuarded.surrounds handles).encloses
  intro position id instruction fetched _
  have inside : position < body.length := Routine.fetch?_lt fetched
  exact ⟨(isGuarded.fetch?_code rfl rfl inside).trans fetched, rfl⟩

theorem startOf_eq (isGuarded : guarded.IsGuarded body method exception handler first code)
    (regions : List Region) (receiver : Option Value) (arguments : List Value) :
    method.startOf guarded (body.guardRegions exception handler first regions) receiver arguments =
      (method.startOf body regions receiver arguments).enclose id
        (method.spareSlots exception) := by
  simp [Method.startOf, Method.routineOf, Routine.start, Frame.enclose, guardRegions,
    Method.spareSlots, isGuarded.slots, Function.comp_def]

/-- The additional clause does not catch an exception of another kind. -/
theorem unwind_other {frame : Frame} {isInstance : Value → TypeExpr → Bool} {thrown : Value}
    (other : isInstance thrown exception = false) (origin : Nat) :
    frame.unwind (body.guardRegions exception handler first regions) isInstance thrown origin
      regions.length = .finish (.threw thrown) := by
  have spared : (body.guardRegion exception handler first).intercepts (isInstance thrown) origin =
      false := by
    simp [Region.intercepts, guardRegion, Clause.guarding, Clause.isCatch, other]
  have length : (regions.map (·.shift id)).length = regions.length := List.length_map ..
  rw [guardRegions, ← length, Frame.unwind_last, spared]
  exact if_neg Bool.false_ne_true

/-- Where a run halts without anything to report, it halts in the guarded body as well. -/
theorem halts_enclose (isGuarded : guarded.IsGuarded body method exception handler first code)
    (handles : handler ≠ []) {limit left count : Nat} {last : Frame} {between : σ}
    {final : List Op} {values : Array Value}
    (fits : last.Fits (method.routineOf body regions) values)
    (nothing : host.HasNothingToReport exception ended result)
    (halts : (method.routineOf body regions).Halts host limit left last between result final count
      ended) :
    (method.routineOf guarded (body.guardRegions exception handler first regions)).Halts host limit
      left (last.enclose id (method.spareSlots exception)) between result final count ended := by
  have encloses := isGuarded.encloses handles regions
  have fetch : ∀ {position id instruction},
      (method.routineOf body regions).fetch? position = some (id, instruction) →
      (method.routineOf guarded (body.guardRegions exception handler first regions)).fetch?
        position = some (id, instruction) := fun fetched =>
    (isGuarded.fetch?_code rfl rfl (Routine.fetch?_lt fetched)).trans fetched
  cases halts with
  | spent => exact .spent _ _
  | ranPast => exact nothing.elim
  | missing => exact nothing.elim
  | @faulted _ _ _ _ id instruction fault fetched stepped =>
      cases fault with
      | stepLimit => exact .faulted (fetch fetched) (Routine.step_stepLimit fits stepped)
      | _ => exact nothing.elim
  | @finished _ _ _ _ id instruction completion fetched stepped =>
      cases completion with
      | returned value =>
          have isRet : instruction.op = .ret := Routine.op_of_step_returned stepped
          obtain ⟨turn, steppedOuter, follows⟩ := Routine.follows_step
            encloses fits (Routine.fetch?_lt fetched) (fun notRet => absurd isRet notRet) stepped
          cases follows with
          | returned => exact .finished (fetch fetched) steppedOuter
      | threw thrown =>
          obtain ⟨_, frame, origin, _, _, steppedOuter⟩ :=
            Routine.step_threw encloses fits fetched stepped
          refine .finished (fetch fetched) (steppedOuter.trans ?_)
          exact congrArg (fun turn => (Except.ok turn, ended)) (unwind_other nothing origin)

/-- A run that gives the guard nothing to report goes on in the guarded body to the same end. -/
theorem execute_eq (isGuarded : guarded.IsGuarded body method exception handler first code)
    (handles : handler ≠ []) (bodied : method.body = some body)
    (executed : emulator.execute host method receiver arguments world = (result, after, ended))
    (nothing : host.HasNothingToReport exception ended result) :
    emulator.execute host { method with body := some guarded } receiver arguments world =
      (result, after, ended) := by
  have ran : ∀ id, result ≠ .error (.notPlaced id) := by
    rintro id rfl
    exact nothing
  obtain ⟨regions, has⟩ := Emulator.hasRegions_of_execute bodied executed ran
  obtain ⟨ops, last, between, left, final, count, path, halts, within, rfl⟩ :=
    Emulator.exists_path_of_execute bodied has executed
  obtain ⟨pathOuter, fits⟩ := Routine.path_enclose (isGuarded.encloses handles regions)
    (Routine.fits_start _ _) path
  rw [← Method.startOf, ← isGuarded.startOf_eq] at pathOuter
  exact Emulator.execute_of_path rfl ((isGuarded.surrounds handles).hasRegions has) pathOuter
    (isGuarded.halts_enclose handles fits nothing halts) within

end Body.IsGuarded

/-- Guarding a method does not show in an execution that gives the guard nothing to report. Result,
steps, trace and state of the host are the same, and so is all that the host is asked. -/
theorem execute_guarded_eq {binder : Binder} {handlerType : TypeExpr} {rethrow : Bool}
    (wrapped : (method.wrap (.guard exception handlerType rethrow) binder).1 = .ok woven)
    (executed : emulator.execute host method receiver arguments world = (result, after, ended))
    (nothing : host.HasNothingToReport exception ended result) :
    emulator.execute host woven receiver arguments world = (result, after, ended) ∧
      emulator.contacts host woven receiver arguments world =
        emulator.contacts host method receiver arguments world := by
  cases bodied : method.body with
  | none =>
      simp only [Emulator.execute, bodied, Prod.mk.injEq] at executed
      obtain ⟨rfl, _⟩ := executed
      exact nothing.elim
  | some body =>
      obtain ⟨members, _, guarded, guards, rfl⟩ := (Method.wrap_guard_eq_ok_iff bodied).mp wrapped
      obtain ⟨_, first, code, isGuarded⟩ := Body.isGuarded_of_guard guards
      have handles := guardHandler_ne_nil method members (body.addedSlot method) rethrow
      have logged : emulator.execute host.logged method receiver arguments (world, []) =
          (result, after, ended, emulator.contacts host method receiver arguments world) := by
        rw [Emulator.execute_logged, executed]
        rfl
      have nothingLogged : host.logged.HasNothingToReport exception
          (ended, emulator.contacts host method receiver arguments world) result := nothing
      refine ⟨isGuarded.execute_eq handles bodied executed nothing, ?_⟩
      rw [Emulator.contacts, isGuarded.execute_eq handles bodied logged nothingLogged]

/-- A method that returns at once. -/
theorem execute_guarded_eq_ret :
    ∃ woven, ((Sample.method .void [⟨.ret, .none⟩]).wrap
        (.guard Sample.exceptionType Sample.monitorType false) Sample.binder).1 = .ok woven ∧
      ({} : Emulator).execute Sample.host woven none [] 0 =
        (.ok (.returned none), { steps := 1, trace := #[.ret] }, 0) := by
  have succeeds : ((Sample.method .void [⟨.ret, .none⟩]).wrap
      (.guard Sample.exceptionType Sample.monitorType false) Sample.binder).1.toOption.any
        Method.hasBody = true := by decide +kernel
  have executed : ({} : Emulator).execute Sample.host (Sample.method .void [⟨.ret, .none⟩]) none []
      0 = (.ok (.returned none), { steps := 1, trace := #[.ret] }, 0) := rfl
  have nothing : Sample.host.HasNothingToReport Sample.exceptionType 0 (.ok (.returned none)) :=
    trivial
  obtain ⟨woven, wrapped, _⟩ := exists_eq_ok_of_any succeeds
  exact ⟨woven, wrapped, (execute_guarded_eq wrapped executed nothing).1⟩

end Splice
