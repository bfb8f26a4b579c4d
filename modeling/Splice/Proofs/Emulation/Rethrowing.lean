import Splice.Proofs.Emulation.Completion
import Splice.Proofs.Emulation.History
import Splice.Proofs.Emulation.Resumption

/-!
# Rethrowing

The exceptions that catch handlers were entered with are kept for the whole run, one for each
region. A `rethrow` finds its own by a search of the table. Where the table lists inner regions
first and every catch handler is entered by its exception only, this is the exception with which the
innermost catch handler around the `rethrow` was entered last.
-/

namespace Splice

variable {σ : Type} {routine : Routine} {host : Host σ} {regions : List Region} {region : Region}
variable {frame next first : Frame} {world between : σ} {events : List Event} {id : InstrId}
variable {body : Body} {position : Nat} {operand : Operand} {arguments : List Value}

/-- The region's handler is the innermost catch handler around the position. -/
structure Region.CatchesAt (region : Region) (regions : List Region) (position : Nat) : Prop where
  listed : region ∈ regions
  isCatch : region.clause.isCatch
  around : region.handler.contains position
  innermost : ∀ other ∈ regions, other.clause.isCatch → other.handler.contains position →
    region.handler.isWithin other.handler

/-- The last entry into the region's handler with an exception. -/
def lastCapture? (events : List Event) (region : Region) : Option Capture :=
  (events.filterMap (·.capture?)).find? (·.region = region)

/-- A catch handler around the target of the step is one around its source, or the step enters it
with an exception. -/
def Event.EntersByCapture (regions : List Region) (event : Event) : Prop :=
  ∀ region ∈ regions, region.clause.isCatch → region.handler.contains event.target →
    region.handler.contains event.source ∨ event.capture?.map (·.region) = some region

instance : DecidablePred (Event.EntersByCapture regions) := fun event =>
  inferInstanceAs (Decidable (∀ region ∈ regions, region.clause.isCatch →
    region.handler.contains event.target →
      region.handler.contains event.source ∨ event.capture?.map (·.region) = some region))

/-- Catch handlers are entered with an exception only. The first instruction stands in none. -/
structure Region.CatchesOnly (regions : List Region) (events : List Event) : Prop where
  start : ∀ region ∈ regions, region.clause.isCatch → ¬ region.handler.contains 0
  steps : ∀ event ∈ events, event.EntersByCapture regions

/-! ## What is caught -/

theorem lastCapture?_cons_of_none {event : Event} (captures : event.capture? = none) :
    lastCapture? (event :: events) = lastCapture? events := by
  funext region
  rw [lastCapture?, List.filterMap_cons_none captures, lastCapture?]

theorem lastCapture?_cons_of_some {event : Event} {capture : Capture}
    (captures : event.capture? = some capture) :
    lastCapture? (event :: events) =
      Function.update (lastCapture? events) capture.region (some capture) := by
  funext region
  rw [lastCapture?, List.filterMap_cons_some captures, Function.update_apply]
  split
  next same => exact List.find?_cons_of_pos (by simp [same])
  next other => exact List.find?_cons_of_neg (by simp [Ne.symm other])

theorem exists_lastCapture?_cons {earlier : Capture}
    (last : lastCapture? events region = some earlier) (event : Event) :
    ∃ capture, lastCapture? (event :: events) region = some capture := by
  cases captures : event.capture? with
  | none =>
      rw [lastCapture?_cons_of_none captures]
      exact ⟨earlier, last⟩
  | some capture =>
      rw [lastCapture?_cons_of_some captures, Function.update_apply]
      split
      · exact ⟨capture, rfl⟩
      · exact ⟨earlier, last⟩

/-- The exception of the last capture for each region. -/
def caughtAfter (regions : List Region) (events : List Event) : List (Option Value) :=
  regions.map fun region => (lastCapture? events region).map (·.exception)

theorem caughtAfter_cons_of_none {event : Event} (captures : event.capture? = none) :
    caughtAfter regions (event :: events) = caughtAfter regions events := by
  rw [caughtAfter, lastCapture?_cons_of_none captures, caughtAfter]

theorem caughtAfter_cons_of_some {event : Event} {capture : Capture} {index : Nat}
    (captures : event.capture? = some capture) (distinct : regions.Nodup)
    (listed : regions[index]? = some capture.region) :
    caughtAfter regions (event :: events) =
      (caughtAfter regions events).set index (some capture.exception) := by
  obtain ⟨inside, found⟩ := List.getElem?_eq_some_iff.mp listed
  have here : regions.idxOf capture.region = index := by
    rw [← found, distinct.idxOf_getElem]
  have update : (fun region => (lastCapture? (event :: events) region).map (·.exception)) =
      Function.update (fun region => (lastCapture? events region).map (·.exception))
        capture.region (some capture.exception) := by
    rw [lastCapture?_cons_of_some captures]
    funext region
    rw [Function.update_apply, Function.update_apply]
    split <;> rfl
  rw [caughtAfter, update, distinct.map_update, if_pos (List.mem_of_getElem? listed), here,
    caughtAfter]

/-- A step keeps the exceptions of the last captures. -/
theorem Conduct.Leads.caught_eq {conduct : Conduct} {isInstance : Value → TypeExpr → Bool}
    (leads : conduct.Leads regions isInstance frame next) (distinct : regions.Nodup)
    (same : frame.caught = caughtAfter regions events) :
    next.caught = caughtAfter regions
      (.along regions isInstance frame.position next.position conduct :: events) := by
  cases leads with
  | stay _ kept => rw [caughtAfter_cons_of_none rfl, kept, same]
  | @transfer _ before _ transfer starts _ kept carried =>
      have captures : (Event.along regions isInstance frame.position next.position
          conduct).capture? = transfer.capture? regions isInstance := Event.capture?_along starts
      cases comes : transfer.capture? regions isInstance with
      | none =>
          rw [comes] at captures
          rw [caughtAfter_cons_of_none captures, caught_of_carryOn carried comes, kept, same]
      | some capture =>
          rw [comes] at captures
          obtain ⟨index, listed, _, noted⟩ := carryOn_capture carried comes
          rw [caughtAfter_cons_of_some captures distinct listed, noted, kept, same]

theorem Routine.Past.caught_eq
    (past : routine.Past host (routine.start arguments) world events frame between)
    (distinct : routine.regions.Nodup) : frame.caught = caughtAfter routine.regions events := by
  induction past with
  | start => rfl
  | step _ _ stepped ih => exact (Routine.leads_of_step stepped).caught_eq distinct ih

/-- Within a catch handler that was entered by its exceptions only, there is a last one. -/
theorem Routine.Past.exists_lastCapture
    (past : routine.Past host (routine.start arguments) world events frame between)
    (enters : Region.CatchesOnly routine.regions events) (listed : region ∈ routine.regions)
    (isCatch : region.clause.isCatch) (around : region.handler.contains frame.position) :
    ∃ capture, lastCapture? events region = some capture := by
  induction past with
  | start => exact (enters.start region listed isCatch around).elim
  | step _ _ stepped ih =>
      have entersBefore : Region.CatchesOnly routine.regions _ :=
        ⟨enters.start, fun event member => enters.steps event (List.mem_cons_of_mem _ member)⟩
      rcases enters.steps _ List.mem_cons_self region listed isCatch around with stays | entered
      · obtain ⟨earlier, last⟩ := ih entersBefore stays
        exact exists_lastCapture?_cons last _
      · obtain ⟨capture, captures, rfl⟩ := Option.map_eq_some_iff.mp entered
        rw [lastCapture?_cons_of_some captures, Function.update_self]
        exact ⟨capture, rfl⟩

/-! ## What a rethrow finds -/

/-- The search of the table stops at the innermost catch handler. -/
theorem Body.WellFormed.find?_catch (wellFormed : body.WellFormed regions)
    (innerFirst : Region.InnerFirst regions)
    (inside : ∃ region ∈ regions, region.clause.isCatch ∧ region.handler.contains position) :
    ∃ region, regions.find? (fun region =>
        region.clause.isCatch && region.handler.contains position) = some region ∧
      region.CatchesAt regions position := by
  have stops : (regions.find? fun region =>
      region.clause.isCatch && region.handler.contains position).isSome := by
    simpa [List.find?_isSome] using inside
  obtain ⟨region, found⟩ := Option.isSome_iff_exists.mp stops
  obtain ⟨catches, front, back, split, before⟩ := List.find?_eq_some_iff_append.mp found
  rw [Bool.and_eq_true] at catches
  refine ⟨region, found, List.mem_of_find?_eq_some found, catches.1, catches.2, ?_⟩
  intro other listed isCatch around
  have nests := wellFormed.nests_handlers (List.mem_of_find?_eq_some found) listed
  rcases Range.isWithin_or_isWithin nests catches.2 around with within | inner
  · exact within
  · have behind : other ∈ region :: back := by
      rw [split, List.mem_append] at listed
      refine listed.resolve_left fun earlier => ?_
      simpa [isCatch, around] using before other earlier
    rcases List.mem_cons.mp behind with rfl | later
    · exact inner
    · rw [split, Region.InnerFirst, List.pairwise_append] at innerFirst
      have same := (List.pairwise_cons.mp innerFirst.2.1).1 other later
      rw [same other.handler (by simp [Region.ranges]) region.handler (by simp [Region.ranges]) inner]
      exact Range.isWithin_refl _

theorem Frame.currentException?_eq {image : Region → Option Value}
    (same : frame.caught = regions.map image) :
    frame.currentException? regions = (regions.find? fun region =>
      region.clause.isCatch && region.handler.contains frame.position).bind image := by
  have zipped : regions.zip frame.caught = regions.map fun region => (region, image region) := by
    rw [same, List.zip, List.zipWith_map_right, List.zipWith_self]
  rw [currentException?, zipped, List.find?_map]
  cases found : regions.find? fun region =>
      region.clause.isCatch && region.handler.contains frame.position with
  | none => simp [Function.comp_def, found]
  | some region => simp [Function.comp_def, found]

/-- A `rethrow` in a catch handler raises the exception with which the innermost catch handler around
it was entered last. -/
theorem rethrow_raises_last (checked : routine.body.check = .ok ())
    (has : routine.body.HasRegions routine.regions)
    (innerFirst : Region.InnerFirst routine.regions)
    (distinct : routine.regions.Pairwise fun left right => left.handler ≠ right.handler)
    (past : routine.Past host (routine.start arguments) world events frame between)
    (enters : Region.CatchesOnly routine.regions events)
    (inside : ∃ region ∈ routine.regions,
      region.clause.isCatch ∧ region.handler.contains frame.position) :
    ∃ region capture, region.CatchesAt routine.regions frame.position ∧
      lastCapture? events region = some capture ∧
      routine.step host frame id ⟨.rethrow, operand⟩ between =
        (.ok (frame.raise routine.regions (host.isInstance between) capture.exception),
          between) := by
  obtain ⟨wellRegions, wellFormed⟩ := Body.check_eq_ok_iff.mp checked
  cases wellFormed.hasRegions.unique has
  have separate : routine.regions.Nodup := distinct.imp fun apart same => apart (by rw [same])
  obtain ⟨region, found, catches⟩ := wellFormed.find?_catch innerFirst inside
  obtain ⟨capture, last⟩ :=
    past.exists_lastCapture enters catches.listed catches.isCatch catches.around
  have current : frame.currentException? routine.regions = some capture.exception := by
    rw [Frame.currentException?_eq (past.caught_eq separate), found, Option.bind_some, last,
      Option.map_some]
  exact ⟨region, capture, catches, last, Routine.step_rethrow current⟩

namespace Sample

/-- A catch handler in which another exception is thrown and caught before the `rethrow`. -/
def rethrowing : Routine where
  name := "M"
  isVoid := true
  body :=
    { Body.empty.appendAll [⟨.ldstr, .string "outer"⟩, ⟨.throw, .none⟩, ⟨.pop, .none⟩,
        ⟨.ldstr, .string "inner"⟩, ⟨.throw, .none⟩, .leaveTo ⟨6⟩, ⟨.rethrow, .none⟩,
        ⟨.ret, .none⟩] with
      clauses := [.guarding ⟨3⟩ ⟨5⟩ ⟨6⟩ (.named "System.Object"),
        .guarding ⟨0⟩ ⟨2⟩ ⟨7⟩ (.named "System.Object")] }
  regions :=
    [⟨.guarding ⟨3⟩ ⟨5⟩ ⟨6⟩ (.named "System.Object"), ⟨3, 5⟩, ⟨5, 6⟩⟩,
      ⟨.guarding ⟨0⟩ ⟨2⟩ ⟨7⟩ (.named "System.Object"), ⟨0, 2⟩, ⟨2, 7⟩⟩]

end Sample

/-- The inner exception has been thrown and caught when the outer one is thrown again. -/
theorem rethrow_raises_last_nested :
    ∃ events frame, Sample.rethrowing.Past Sample.host (Sample.rethrowing.start []) 0 events frame
        0 ∧ frame.position = 6 ∧
      ∃ region capture, region.CatchesAt Sample.rethrowing.regions 6 ∧
        lastCapture? events region = some capture ∧
        Sample.rethrowing.step Sample.host frame ⟨6⟩ ⟨.rethrow, .none⟩ 0 =
          (.ok (frame.raise Sample.rethrowing.regions (Sample.host.isInstance 0)
            capture.exception), 0) := by
  have has : Sample.rethrowing.body.HasRegions Sample.rethrowing.regions :=
    Body.mapM_region_eq_ok_iff.mp (by rfl)
  have innerFirst : Region.InnerFirst Sample.rethrowing.regions := by
    rw [Region.InnerFirst]
    decide
  have atStart :
      Sample.rethrowing.Past Sample.host (Sample.rethrowing.start []) 0 [] _ 0 := .start
  have loaded := atStart.step (by rfl) (by rfl)
  have caught := loaded.step (by rfl) (by rfl)
  have popped := caught.step (by rfl) (by rfl)
  have loadedThen := popped.step (by rfl) (by rfl)
  have caughtThen := loadedThen.step (by rfl) (by rfl)
  have behind := caughtThen.step (by rfl) (by rfl)
  exact ⟨_, _, behind, rfl, rethrow_raises_last (by rfl) has innerFirst (by decide) behind
    ⟨by decide, by decide⟩ (by decide)⟩

end Splice
