import Splice.Proofs.Emulation.Resumption

/-!
# Dispatch of exceptions

A raised exception passes through the finally handlers that are listed before the catch handler it
ends in. The search for that handler is spread over the run: each finally handler suspends it, and
the `endfinally` of the handler goes on with it. Here the parts are put together again to one
search of the exception table.

A stay is what happens between the entry into a finally handler and its `endfinally`. Handlers may
contain any code, so nothing is known of a stay but that it ends with the pending resumptions it
began with. Where a handler does not come to such an end, the search is never taken up again.
-/

namespace Splice

variable {σ : Type} {routine : Routine} {host : Host σ} {regions : List Region} {body : Body}
variable {waiting pending : List Resumption} {transfer : Resumption} {frame entered : Frame}
variable {world between after ended : σ} {turn next last : Turn} {exception : Value} {origin : Nat}
variable {found : Option Region}

/-- A passage through a finally handler, from the entry into it up to its `endfinally`. -/
structure Stay (σ : Type) where
  region : Region
  entered : Frame
  before : σ
  ended : Frame
  after : σ

variable {stay : Stay σ} {stays : List (Stay σ)}

/-! ## Passing through handlers -/

namespace Routine

/-- Steps up to the first `endfinally` that finds the given resumptions pending. -/
inductive Concludes (routine : Routine) (host : Host σ) (pending : List Resumption) :
    Frame → σ → Frame → σ → Prop where
  | here {frame : Frame} {world : σ} {id : InstrId} {operand : Operand} :
      routine.fetch? frame.position = some (id, ⟨.endfinally, operand⟩) →
      frame.pending = pending →
      Concludes routine host pending frame world frame world
  | step {first middle last : Frame} {world between ended : σ} {id : InstrId}
      {instruction : Instruction} :
      routine.fetch? first.position = some (id, instruction) →
      (instruction.op = .endfinally → first.pending ≠ pending) →
      routine.step host first id instruction world = (.ok (.goOn middle), between) →
      Concludes routine host pending middle between last ended →
      Concludes routine host pending first world last ended

/-- The handler is entered at its start with an empty stack, and it suspends one transfer over what
waits already. It comes to its end, and the `endfinally` leads to the next turn. -/
structure Passes (routine : Routine) (host : Host σ) (waiting : List Resumption) (stay : Stay σ)
    (next : Turn) : Prop where
  atStart : stay.entered.position = stay.region.handler.start
  cleared : stay.entered.stack = []
  suspends : ∃ transfer, stay.entered.pending = transfer :: waiting
  concludes : routine.Concludes host stay.entered.pending stay.entered stay.before stay.ended
    stay.after
  resumes : ∃ id operand,
    routine.fetch? stay.ended.position = some (id, ⟨.endfinally, operand⟩) ∧
      routine.step host stay.ended id ⟨.endfinally, operand⟩ stay.after = (.ok next, stay.after)

/-- Stays that follow one another, each begun where the one before has led to. -/
inductive Proceeds (routine : Routine) (host : Host σ) (waiting : List Resumption) :
    Turn → σ → List (Stay σ) → Turn → σ → Prop where
  | done (turn : Turn) (world : σ) : Proceeds routine host waiting turn world [] turn world
  | through {stay : Stay σ} {stays : List (Stay σ)} {next last : Turn} {ended : σ} :
      routine.Passes host waiting stay next →
      Proceeds routine host waiting next stay.after stays last ended →
      Proceeds routine host waiting (.goOn stay.entered) stay.before (stay :: stays) last ended

/-- Every finally handler that is entered on the way comes to an `endfinally` with the resumptions
that were pending when it was entered. -/
def AllConclude (routine : Routine) (host : Host σ) (waiting : List Resumption) (turn : Turn)
    (world : σ) : Prop :=
  ∀ stays entered between transfer,
    routine.Proceeds host waiting turn world stays (.goOn entered) between →
    entered.pending = transfer :: waiting →
    ∃ ended after, routine.Concludes host entered.pending entered between ended after

namespace Concludes

theorem pending_eq {first last : Frame}
    (concludes : routine.Concludes host pending first world last ended) :
    last.pending = pending := by
  induction concludes with
  | here _ same => exact same
  | step _ _ _ _ ih => exact ih

theorem fetched {first last : Frame}
    (concludes : routine.Concludes host pending first world last ended) :
    ∃ id operand, routine.fetch? last.position = some (id, ⟨.endfinally, operand⟩) := by
  induction concludes with
  | here fetched => exact ⟨_, _, fetched⟩
  | step _ _ _ _ ih => exact ih

theorem unique {first last other : Frame}
    (concludes : routine.Concludes host pending first world last ended)
    (again : routine.Concludes host pending first world other after) :
    other = last ∧ after = ended := by
  induction concludes with
  | here fetched same =>
      cases again with
      | here => exact ⟨rfl, rfl⟩
      | step refetched goesOn =>
          obtain ⟨_, rfl⟩ := Prod.mk.inj (Option.some.inj (fetched.symm.trans refetched))
          exact absurd same (goesOn rfl)
  | step fetched goesOn stepped _ ih =>
      cases again with
      | here refetched same =>
          obtain ⟨_, rfl⟩ := Prod.mk.inj (Option.some.inj (fetched.symm.trans refetched))
          exact absurd same (goesOn rfl)
      | step refetched _ restepped rest =>
          obtain ⟨rfl, rfl⟩ := Prod.mk.inj (Option.some.inj (fetched.symm.trans refetched))
          rw [stepped, Prod.mk.injEq, Except.ok.injEq, Turn.goOn.injEq] at restepped
          obtain ⟨rfl, rfl⟩ := restepped
          exact ih rest

end Concludes

/-- A handler that comes to its end goes on with the transfer it has suspended. -/
theorem passes_of_concludes (region : Region) {ended : Frame}
    (atStart : entered.position = region.handler.start) (cleared : entered.stack = [])
    (suspends : entered.pending = transfer :: waiting)
    (concludes : routine.Concludes host entered.pending entered between ended after) :
    routine.Passes host waiting ⟨region, entered, between, ended, after⟩
      ({ ended with pending := waiting }.carryOn routine.regions (host.isInstance after)
        transfer) := by
  obtain ⟨id, operand, fetched⟩ := concludes.fetched
  have waits : ended.pending = transfer :: waiting := concludes.pending_eq.trans suspends
  exact ⟨atStart, cleared, ⟨transfer, suspends⟩, concludes, id, operand, fetched,
    step_endfinally waits⟩

theorem Concludes.path {first last : Frame}
    (concludes : routine.Concludes host pending first world last ended) :
    ∃ ops, Path routine host first world ops last ended := by
  induction concludes with
  | here => exact ⟨[], .refl _ _⟩
  | step fetched _ stepped _ ih =>
      obtain ⟨ops, path⟩ := ih
      exact ⟨_, .step fetched stepped path⟩

namespace Proceeds

/-- The stays are part of the run. -/
theorem path {first last : Frame}
    (proceeds : routine.Proceeds host waiting (.goOn first) world stays (.goOn last) ended) :
    ∃ ops, Path routine host first world ops last ended := by
  generalize turned : Turn.goOn first = turn at proceeds
  generalize arrived : Turn.goOn last = next at proceeds
  induction proceeds generalizing first with
  | done =>
      obtain rfl := Turn.goOn.inj (turned.trans arrived.symm)
      exact ⟨[], .refl _ _⟩
  | @through stay _ next _ _ passes further ih =>
      obtain rfl := Turn.goOn.inj turned
      obtain ⟨ops, path⟩ := passes.concludes.path
      obtain ⟨id, operand, fetched, stepped⟩ := passes.resumes
      cases next with
      | goOn middle =>
          obtain ⟨later, rest⟩ := ih rfl arrived
          exact ⟨_, path.trans (.step fetched stepped rest)⟩
      | finish =>
          cases further
          exact absurd arrived nofun

/-- The run ends at the last `endfinally` if the stays lead to a completion. -/
theorem halts {first : Frame} {completion : Completion}
    (proceeds : routine.Proceeds host waiting (.goOn first) world stays (.finish completion)
      ended) :
    ∃ ops last, Path routine host first world ops last ended ∧
      ∀ limit budget, Halts routine host limit (budget + 1) last ended (.ok completion)
        [.endfinally] 1 ended := by
  generalize turned : Turn.goOn first = turn at proceeds
  generalize finished : Turn.finish completion = next at proceeds
  induction proceeds generalizing first with
  | done => exact absurd (turned.trans finished.symm) nofun
  | @through stay _ next _ _ passes further ih =>
      obtain rfl := Turn.goOn.inj turned
      obtain ⟨ops, path⟩ := passes.concludes.path
      obtain ⟨id, operand, fetched, stepped⟩ := passes.resumes
      cases next with
      | goOn middle =>
          obtain ⟨later, last, rest, halts⟩ := ih rfl finished
          exact ⟨_, last, path.trans (.step fetched stepped rest), halts⟩
      | finish =>
          cases further
          obtain rfl := Turn.finish.inj finished
          exact ⟨ops, stay.ended, path, fun _ _ => .finished fetched stepped⟩

end Proceeds

namespace AllConclude

theorem finish (completion : Completion) (world : σ) :
    routine.AllConclude host waiting (.finish completion) world := by
  intro stays entered between transfer proceeds
  cases proceeds

/-- Where nothing is suspended, no handler is entered. -/
theorem arrived (same : frame.pending = waiting) :
    routine.AllConclude host waiting (.goOn frame) world := by
  intro stays entered between transfer proceeds suspends
  cases proceeds with
  | done => exact absurd (same.symm.trans suspends) (List.cons_ne_self transfer waiting).symm
  | through passes =>
      obtain ⟨other, above⟩ := passes.suspends
      exact absurd (same.symm.trans above) (List.cons_ne_self other waiting).symm

/-- One handler comes to its end, and so do those after it. -/
theorem enter {ended : Frame} {id : InstrId} {operand : Operand}
    (concludes : routine.Concludes host frame.pending frame world ended after)
    (fetched : routine.fetch? ended.position = some (id, ⟨.endfinally, operand⟩))
    (stepped : routine.step host ended id ⟨.endfinally, operand⟩ after = (.ok next, after))
    (rest : routine.AllConclude host waiting next after) :
    routine.AllConclude host waiting (.goOn frame) world := by
  intro stays entered between transfer proceeds suspends
  cases proceeds with
  | done => exact ⟨ended, after, concludes⟩
  | @through stay _ _ _ _ passes further =>
      obtain ⟨id, operand, refetched, restepped⟩ := passes.resumes
      obtain ⟨sameFrame, sameWorld⟩ := concludes.unique passes.concludes
      rw [sameFrame] at refetched restepped
      rw [sameWorld] at restepped further
      obtain ⟨rfl, same⟩ := Prod.mk.inj (Option.some.inj (fetched.symm.trans refetched))
      rw [← same, stepped, Prod.mk.injEq, Except.ok.injEq] at restepped
      exact rest _ _ _ _ (restepped.1 ▸ further) suspends

/-- The first handler comes to its end, and so do those after it. -/
theorem first (conclude : routine.AllConclude host waiting (.goOn entered) world) (region : Region)
    (atStart : entered.position = region.handler.start) (cleared : entered.stack = [])
    (suspends : entered.pending = transfer :: waiting) :
    ∃ ended after,
      routine.Passes host waiting ⟨region, entered, world, ended, after⟩
        ({ ended with pending := waiting }.carryOn routine.regions (host.isInstance after)
          transfer) ∧
      routine.AllConclude host waiting
        ({ ended with pending := waiting }.carryOn routine.regions (host.isInstance after)
          transfer) after := by
  obtain ⟨ended, after, concludes⟩ := conclude [] entered world transfer (.done _ _) suspends
  have passes := passes_of_concludes region atStart cleared suspends concludes
  refine ⟨ended, after, passes, ?_⟩
  intro stays later between other proceeds above
  exact conclude _ later between other (.through passes proceeds) above

end AllConclude

end Routine

/-! ## The search -/

/-- The search of the table for the handler of an exception, with the stays in the handlers that it
passes and the region in which it ends. A type test is put to the host as the earlier stays have
left it. -/
inductive Host.Seeks (host : Host σ) (exception : Value) (origin : Nat) :
    List Region → σ → List (Stay σ) → Option Region → σ → Prop where
  | nowhere (world : σ) : Seeks host exception origin [] world [] none world
  | caught {region : Region} {rest : List Region} {world : σ} :
      region.clause.isCatch → region.guarded.contains origin →
      region.clause.catchType.any (host.isInstance world exception) →
      Seeks host exception origin (region :: rest) world [] (some region) world
  | passed {region : Region} {rest : List Region} {stays : List (Stay σ)}
      {found : Option Region} {world ended : σ} :
      (region.guarded.contains origin → region.clause.isCatch ∧
        ¬ region.clause.catchType.any (host.isInstance world exception)) →
      Seeks host exception origin rest world stays found ended →
      Seeks host exception origin (region :: rest) world stays found ended
  | visited {rest : List Region} {stays : List (Stay σ)} {found : Option Region} {ended : σ}
      (stay : Stay σ) :
      stay.region.clause.isCatch = false → stay.region.guarded.contains origin →
      Seeks host exception origin rest stay.after stays found ended →
      Seeks host exception origin (stay.region :: rest) stay.before (stay :: stays) found ended

namespace Frame

/-- What the search does about the next region. -/
theorem unwind_of_listed {region : Region} {front rest : List Region}
    (isInstance : Value → TypeExpr → Bool) (listed : regions = front ++ region :: rest) :
    frame.unwind regions isInstance exception origin front.length =
      if region.intercepts (isInstance exception) origin then
        if region.clause.isCatch then
          .goOn { frame with
            stack := [exception]
            caught := frame.caught.set front.length (some exception)
            position := region.handler.start }
        else
          .goOn { frame with
            stack := []
            pending := .unwind exception origin (front.length + 1) :: frame.pending
            position := region.handler.start }
      else frame.unwind regions isInstance exception origin (front.length + 1) := by
  have ahead : regions.zipIdx.drop front.length =
      (region, front.length) :: regions.zipIdx.drop (front.length + 1) := by
    have inside : front.length < regions.zipIdx.length := by simp [listed]
    rw [List.drop_eq_getElem_cons inside]
    simp [listed]
  rw [unwind, ahead, List.find?_cons]
  by_cases intercepts : region.intercepts (isInstance exception) origin
  · simp [intercepts]
  · simp only [intercepts, if_false, Bool.false_eq_true]
    rfl

theorem unwind_of_all_listed (isInstance : Value → TypeExpr → Bool) :
    frame.unwind regions isInstance exception origin regions.length =
      .finish (.threw exception) := by
  have nothing : regions.zipIdx.drop regions.length = [] := by simp
  rw [unwind, nothing]
  rfl

end Frame

/-- Where the search ends: at the start of the found handler with nothing but the exception on the
stack, or at the end of the run. -/
def Turn.AnswersTo (turn : Turn) (exception : Value) (waiting : List Resumption) :
    Option Region → Prop
  | some region => ∃ caught, turn = .goOn caught ∧ caught.position = region.handler.start ∧
      caught.stack = [exception] ∧ caught.pending = waiting
  | none => turn = .finish (.threw exception)

/-- A search that is taken up again after every handler goes through the rest of the table. -/
theorem seeks_of_unwind (front : List Region) {rest : List Region}
    (listed : routine.regions = front ++ rest) (waits : frame.pending = waiting)
    (conclude : routine.AllConclude host waiting
      (frame.unwind routine.regions (host.isInstance world) exception origin front.length) world) :
    ∃ stays found last ended,
      routine.Proceeds host waiting
        (frame.unwind routine.regions (host.isInstance world) exception origin front.length) world
        stays last ended ∧
      host.Seeks exception origin rest world stays found ended ∧
      last.AnswersTo exception waiting found := by
  induction rest generalizing front frame world with
  | nil =>
      obtain rfl : front = routine.regions := by rw [listed, List.append_nil]
      rw [Frame.unwind_of_all_listed]
      exact ⟨[], none, _, world, .done _ _, .nowhere world, rfl⟩
  | cons region rest ih =>
      have further : routine.regions = (front ++ [region]) ++ rest := by simp [listed]
      have search := fun frame world => @ih frame world (front ++ [region]) further
      simp only [List.length_append, List.length_singleton] at search
      rw [Frame.unwind_of_listed _ listed] at conclude ⊢
      by_cases intercepts : region.intercepts (host.isInstance world exception) origin
      · have guarded : region.guarded.contains origin := (Bool.and_eq_true_iff.mp intercepts).1
        rw [if_pos intercepts] at conclude ⊢
        cases isCatch : region.clause.isCatch with
        | true =>
            rw [if_pos rfl]
            have takes : region.clause.catchType.any (host.isInstance world exception) := by
              simpa [Region.intercepts, guarded, isCatch] using intercepts
            exact ⟨[], some region, _, world, .done _ _, .caught isCatch guarded takes, _, rfl,
              rfl, rfl, waits⟩
        | false =>
            rw [isCatch, if_neg Bool.false_ne_true] at conclude
            rw [if_neg Bool.false_ne_true]
            -- The handler suspends the search, and its `endfinally` goes on with it.
            obtain ⟨left, after, passes, conclude⟩ :=
              conclude.first region rfl rfl (congrArg _ waits)
            obtain ⟨stays, found, last, ended, proceeds, seeks, answers⟩ :=
              search _ _ rfl conclude
            exact ⟨_ :: stays, found, last, ended, .through passes proceeds,
              .visited ⟨region, _, world, left, after⟩ isCatch guarded seeks, answers⟩
      · have clear : region.guarded.contains origin → region.clause.isCatch ∧
            ¬ region.clause.catchType.any (host.isInstance world exception) := by
          simpa [Region.intercepts] using intercepts
        rw [if_neg intercepts] at conclude ⊢
        obtain ⟨stays, found, last, ended, proceeds, seeks, answers⟩ := search _ _ waits conclude
        exact ⟨stays, found, last, ended, proceeds, .passed clear seeks, answers⟩

/-! ## The order of entry -/

namespace Region

/-- The handlers through which an exception passes if it does not end before. -/
def isPassed (origin : Nat) (region : Region) : Bool :=
  !region.clause.isCatch && region.guarded.contains origin

end Region

/-- The search stays in the handlers of the regions before the one in which it ends. -/
theorem Host.Seeks.visits (seeks : host.Seeks exception origin regions world stays found ended) :
    ∃ front back, regions = front ++ found.toList ++ back ∧ (found = none → back = []) ∧
      stays.map (·.region) = front.filter (·.isPassed origin) := by
  induction seeks with
  | nowhere => exact ⟨[], [], rfl, fun _ => rfl, rfl⟩
  | @caught region rest => exact ⟨[], rest, rfl, nofun, rfl⟩
  | @passed region _ _ _ world _ clear _ ih =>
      obtain ⟨front, back, listed, whole, same⟩ := ih
      refine ⟨region :: front, back, by simp [listed], whole, ?_⟩
      have notPassed : region.isPassed origin = false := by
        by_contra passed
        simp only [Region.isPassed, Bool.not_eq_false, Bool.and_eq_true, Bool.not_eq_eq_eq_not,
          Bool.not_true] at passed
        simp [clear passed.2] at passed
      rw [same, List.filter_cons_of_neg (by simp [notPassed])]
  | visited stay notCatch guarded _ ih =>
      obtain ⟨front, back, listed, whole, same⟩ := ih
      refine ⟨stay.region :: front, back, by simp [listed], whole, ?_⟩
      have passed : stay.region.isPassed origin := by simp [Region.isPassed, notCatch, guarded]
      rw [List.filter_cons_of_pos passed, List.map_cons, same]

theorem Host.Seeks.guarded (seeks : host.Seeks exception origin regions world stays found ended) :
    ∀ region ∈ found, region.guarded.contains origin := by
  induction seeks with
  | nowhere => nofun
  | caught _ guarded _ => exact fun _ same => Option.mem_some.mp same ▸ guarded
  | passed _ _ ih => exact ih
  | visited _ _ _ _ ih => exact ih

/-- In a table that lists inner regions first, the protected ranges around a position are listed
from the inside out. -/
theorem Body.WellFormed.outward (wellFormed : body.WellFormed regions)
    (innerFirst : Region.InnerFirst regions) (position : Nat) :
    (regions.filter (·.guarded.contains position)).Pairwise
      fun inner outer => inner.guarded.isWithin outer.guarded := by
  rw [List.pairwise_filter]
  refine (wellFormed.nested.and innerFirst).imp ?_
  rintro inner outer ⟨nests, separate⟩ inInner inOuter
  have nested := nests _ List.mem_cons_self _ List.mem_cons_self
  rcases Range.isWithin_or_isWithin nested inInner inOuter with within | around
  · exact within
  · rw [separate _ List.mem_cons_self _ List.mem_cons_self around]
    exact Range.isWithin_refl _

/-! ## Raising an exception -/

/-- A raised exception passes through the handlers of the stays, one after the other, to where the
search of the table ends. -/
structure Routine.Dispatches (routine : Routine) (host : Host σ) (frame : Frame) (exception : Value)
    (world : σ) (stays : List (Stay σ)) (found : Option Region) (last : Turn) (ended : σ) :
    Prop where
  proceeds : routine.Proceeds host frame.pending
    (frame.raise routine.regions (host.isInstance world) exception) world stays last ended
  seeks : host.Seeks exception frame.position routine.regions world stays found ended
  /-- The stays are those in the regions listed before the one that is found. -/
  visits : ∃ front back, routine.regions = front ++ found.toList ++ back ∧
    (found = none → back = []) ∧
    stays.map (·.region) = front.filter (·.isPassed frame.position)
  outward : (stays.map (·.region) ++ found.toList).Pairwise
    fun inner outer => inner.guarded.isWithin outer.guarded
  answers : last.AnswersTo exception frame.pending found

/-- A run that has entered the first handler comes to the catch handler that takes the exception, or
ends with the exception. -/
theorem Routine.Dispatches.runs {first : Frame}
    (dispatches : routine.Dispatches host frame exception world stays found last ended)
    (raised : frame.raise routine.regions (host.isInstance world) exception = .goOn first) :
    (∃ region ops caught, found = some region ∧ Path routine host first world ops caught ended ∧
      caught.position = region.handler.start ∧ caught.stack = [exception]) ∨
    ∃ ops final, found = none ∧ Path routine host first world ops final ended ∧
      ∀ limit budget, Halts routine host limit (budget + 1) final ended (.ok (.threw exception))
        [.endfinally] 1 ended := by
  have proceeds := dispatches.proceeds
  have answers := dispatches.answers
  rw [raised] at proceeds
  cases found with
  | some region =>
      obtain ⟨caught, rfl, position, stack, _⟩ := answers
      obtain ⟨ops, path⟩ := proceeds.path
      exact .inl ⟨region, ops, caught, rfl, path, position, stack⟩
  | none =>
      rw [answers] at proceeds
      obtain ⟨ops, final, path, halts⟩ := proceeds.halts
      exact .inr ⟨ops, final, rfl, path, halts⟩

/-- An exception runs the finally handlers around it that are listed before the first catch handler
that takes it, from the inside out, and then that catch handler. If there is none, it runs them all
and ends the run. -/
theorem raise_dispatches (checked : routine.body.check = .ok ())
    (has : routine.body.HasRegions routine.regions)
    (innerFirst : Region.InnerFirst routine.regions)
    (conclude : routine.AllConclude host frame.pending
      (frame.raise routine.regions (host.isInstance world) exception) world) :
    ∃ stays found last ended,
      routine.Dispatches host frame exception world stays found last ended := by
  obtain ⟨_, wellFormed⟩ := Body.check_eq_ok_iff.mp checked
  obtain rfl := has.unique wellFormed.hasRegions
  obtain ⟨stays, found, last, ended, proceeds, seeks, answers⟩ :=
    seeks_of_unwind [] (List.nil_append _).symm rfl conclude
  have visits := seeks.visits
  refine ⟨stays, found, last, ended, proceeds, seeks, visits, ?_, answers⟩
  obtain ⟨front, back, listed, _, same⟩ := visits
  have around : found.toList.filter (·.guarded.contains frame.position) = found.toList :=
    List.filter_eq_self.mpr fun region member =>
      seeks.guarded region (Option.mem_toList.mp member)
  have sublist : (stays.map (·.region) ++ found.toList).Sublist
      (routine.regions.filter (·.guarded.contains frame.position)) := by
    rw [same, listed, List.filter_append, List.filter_append, around, List.append_assoc]
    apply List.Sublist.append
    · have both : front.filter (·.isPassed frame.position) =
          (front.filter (·.guarded.contains frame.position)).filter (!·.clause.isCatch) := by
        rw [List.filter_filter]
        rfl
      rw [both]
      exact List.filter_sublist
    · exact List.sublist_append_left _ _
  exact (wellFormed.outward innerFirst frame.position).sublist sublist

namespace Sample

/-- A finally handler inside a catch clause around it. -/
def guardedFinally : Routine where
  name := "M"
  isVoid := true
  body :=
    { Body.empty.appendAll [⟨.ldstr, .string "lost"⟩, ⟨.throw, .none⟩, ⟨.nop, .none⟩,
        ⟨.endfinally, .none⟩, .leaveTo ⟨5⟩, ⟨.ret, .none⟩] with
      clauses := [.finishing ⟨0⟩ ⟨2⟩ ⟨4⟩, .guarding ⟨0⟩ ⟨4⟩ ⟨5⟩ (.named "System.Object")] }
  regions :=
    [⟨.finishing ⟨0⟩ ⟨2⟩ ⟨4⟩, ⟨0, 2⟩, ⟨2, 4⟩⟩,
      ⟨.guarding ⟨0⟩ ⟨4⟩ ⟨5⟩ (.named "System.Object"), ⟨0, 4⟩, ⟨4, 5⟩⟩]

/-- The frame that throws. -/
def throwing : Frame := { guardedFinally.start [] with position := 1 }

end Sample

/-- The finally handler runs before the exception is caught. -/
theorem raise_dispatches_guarded :
    ∃ stays found last ended, Sample.guardedFinally.Dispatches Sample.host Sample.throwing
      (.string "lost") 0 stays found last ended := by
  have has : Sample.guardedFinally.body.HasRegions Sample.guardedFinally.regions :=
    Body.mapM_region_eq_ok_iff.mp (by rfl)
  have innerFirst : Region.InnerFirst Sample.guardedFinally.regions := by
    rw [Region.InnerFirst]
    decide
  have conclude : Sample.guardedFinally.AllConclude Sample.host Sample.throwing.pending
      (Sample.throwing.raise Sample.guardedFinally.regions (Sample.host.isInstance 0)
        (.string "lost")) 0 := by
    apply Routine.AllConclude.enter
    · exact .step (by rfl) (by decide) (by rfl) (.here (by rfl) (by rfl))
    · rfl
    · rfl
    · exact .arrived (by rfl)
  exact raise_dispatches (by rfl) has innerFirst conclude

end Splice
