import Splice.Proofs.Code.Placement
import Splice.Emulation.Run

/-!
# Paths

The steps that a run takes without coming to its end form a path. Every run is a path followed by
one halt: the budget is spent, there is no instruction, or the last instruction faults or completes.
-/

namespace Splice.Routine

variable {σ : Type} {routine : Routine} {host : Host σ} {limit budget : Nat}
variable {first middle last : Frame} {world between ended : σ} {ops : List Op}
variable {id : InstrId} {instruction : Instruction}

/-- The instruction at a position, with its id. -/
def fetch? (routine : Routine) (position : Nat) : Option Placed :=
  routine.body.order[position]?.bind fun id => (routine.body.get? id).map (id, ·)

/-- Steps from one frame to another, with the operations that are executed. -/
inductive Path (routine : Routine) (host : Host σ) : Frame → σ → List Op → Frame → σ → Prop where
  | refl (frame : Frame) (world : σ) : Path routine host frame world [] frame world
  | step {first middle last : Frame} {world between ended : σ} {ops : List Op} {id : InstrId}
      {instruction : Instruction} :
      routine.fetch? first.position = some (id, instruction) →
      routine.step host first id instruction world = (.ok (.goOn middle), between) →
      Path routine host middle between ops last ended →
      Path routine host first world (instruction.op :: ops) last ended

/-- The way in which a run with the given budget ends at a frame, with the operations that it still
executes and the steps that it still counts. -/
inductive Halts (routine : Routine) (host : Host σ) (limit : Nat) :
    (budget : Nat) → Frame → σ → Except Fault Completion → List Op → (steps : Nat) → σ → Prop where
  | spent (frame : Frame) (world : σ) :
      Halts routine host limit 0 frame world (.error (.stepLimit limit)) [] 0 world
  | ranPast {budget : Nat} {frame : Frame} {world : σ} :
      routine.body.order[frame.position]? = none →
      Halts routine host limit (budget + 1) frame world (.error (.ranPast routine.name)) [] 1 world
  | missing {budget : Nat} {frame : Frame} {world : σ} {id : InstrId} :
      routine.body.order[frame.position]? = some id → routine.body.get? id = none →
      Halts routine host limit (budget + 1) frame world (.error (.missing id)) [] 1 world
  | faulted {budget : Nat} {frame : Frame} {world ended : σ} {id : InstrId}
      {instruction : Instruction} {fault : Fault} :
      routine.fetch? frame.position = some (id, instruction) →
      routine.step host frame id instruction world = (.error fault, ended) →
      Halts routine host limit (budget + 1) frame world (.error fault) [instruction.op] 1 ended
  | finished {budget : Nat} {frame : Frame} {world ended : σ} {id : InstrId}
      {instruction : Instruction} {completion : Completion} :
      routine.fetch? frame.position = some (id, instruction) →
      routine.step host frame id instruction world = (.ok (.finish completion), ended) →
      Halts routine host limit (budget + 1) frame world (.ok completion) [instruction.op] 1 ended

theorem fetch?_eq_some_iff {position : Nat} :
    routine.fetch? position = some (id, instruction) ↔
      routine.body.order[position]? = some id ∧ routine.body.get? id = some instruction := by
  simp only [fetch?, Option.bind_eq_some_iff, Option.map_eq_some_iff, Prod.mk.injEq]
  constructor
  · rintro ⟨_, placed, _, stored, rfl, rfl⟩
    exact ⟨placed, stored⟩
  · rintro ⟨placed, stored⟩
    exact ⟨id, placed, instruction, stored, rfl, rfl⟩

/-- The instructions fetched are those of the placed code. -/
theorem fetch?_eq_getElem? {code : List Placed} (places : routine.body.Places code)
    (position : Nat) : routine.fetch? position = code[position]? := by
  rw [fetch?, places.getElem?_order]
  cases found : code[position]? with
  | none => rfl
  | some placed => simp [places.get?_of_getElem? found]

namespace Path

theorem trans {later : List Op} (front : Path routine host first world ops middle between)
    (back : Path routine host middle between later last ended) :
    Path routine host first world (ops ++ later) last ended := by
  induction front with
  | refl => exact back
  | step fetched stepped _ ih => exact .step fetched stepped (ih back)

theorem single (fetched : routine.fetch? first.position = some (id, instruction))
    (stepped : routine.step host first id instruction world = (.ok (.goOn last), ended)) :
    Path routine host first world [instruction.op] last ended :=
  .step fetched stepped (.refl last ended)

end Path

/-- A run goes along a path and on from its end with what is left of the budget. -/
theorem run_of_path (path : Path routine host first world ops last ended) (steps : Nat)
    (trace : Array Op) :
    routine.run host limit (ops.length + budget) first steps trace world =
      routine.run host limit budget last (steps + ops.length) (trace ++ ops.toArray) ended := by
  induction path generalizing steps trace with
  | refl => simp
  | @step first middle last world between ended ops id instruction fetched stepped _ ih =>
      obtain ⟨placed, stored⟩ := fetch?_eq_some_iff.mp fetched
      rw [List.length_cons, Nat.add_right_comm, run]
      simp only [placed, stored, stepped]
      rw [ih]
      congr 1
      · omega
      · simp

theorem run_of_halts {result : Except Fault Completion} {count : Nat}
    (halts : Halts routine host limit budget last world result ops count ended) (steps : Nat)
    (trace : Array Op) :
    routine.run host limit budget last steps trace world =
      ⟨result, steps + count, trace ++ ops.toArray, ended⟩ := by
  cases halts with
  | spent => simp [run]
  | ranPast nothing => simp [run, nothing]
  | missing placed nothing => simp [run, placed, nothing]
  | faulted fetched stepped =>
      obtain ⟨placed, stored⟩ := fetch?_eq_some_iff.mp fetched
      simp [run, placed, stored, stepped]
  | finished fetched stepped =>
      obtain ⟨placed, stored⟩ := fetch?_eq_some_iff.mp fetched
      simp [run, placed, stored, stepped]

/-- From every frame a run takes a path to a frame where it halts. -/
theorem exists_path_halts (routine : Routine) (host : Host σ) (limit budget : Nat) (first : Frame)
    (world : σ) :
    ∃ ops last between left result final count ended,
      Path routine host first world ops last between ∧ ops.length + left = budget ∧
        Halts routine host limit left last between result final count ended := by
  induction budget generalizing first world with
  | zero => exact ⟨[], first, world, 0, _, _, _, _, .refl first world, rfl, .spent first world⟩
  | succ budget ih =>
      cases placed : routine.body.order[first.position]? with
      | none =>
          exact ⟨[], first, world, budget + 1, _, _, _, _, .refl first world, Nat.zero_add _,
            .ranPast placed⟩
      | some id =>
          cases stored : routine.body.get? id with
          | none =>
              exact ⟨[], first, world, budget + 1, _, _, _, _, .refl first world, Nat.zero_add _,
                .missing placed stored⟩
          | some instruction =>
              have fetched := fetch?_eq_some_iff.mpr ⟨placed, stored⟩
              cases stepped : routine.step host first id instruction world with
              | mk answer between =>
                  rcases answer with fault | turn
                  · exact ⟨[], first, world, budget + 1, _, _, _, _, .refl first world,
                      Nat.zero_add _, .faulted fetched stepped⟩
                  · cases turn with
                    | finish completion =>
                        exact ⟨[], first, world, budget + 1, _, _, _, _, .refl first world,
                          Nat.zero_add _, .finished fetched stepped⟩
                    | goOn middle =>
                        obtain ⟨ops, last, between, left, result, final, count, ended, path,
                          spent, halts⟩ := ih middle between
                        exact ⟨_, last, between, left, result, final, count, ended,
                          .step fetched stepped path, by rw [List.length_cons]; omega, halts⟩

end Splice.Routine
