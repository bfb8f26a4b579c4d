import Splice.Weaving.Weave
import Splice.Proofs.Weaving.Sequence

/-!
# Refused bodies

Weaving checks a body only after it has added its code. A flaw that was there before is still there
then: the placed instructions keep their order and their targets, and the clauses their boundaries.
So a flawed body is refused and its method stays as it was.

There is one gap. The check of the woven body cannot tell an id that named nothing from the id of an
added instruction, and it does not see the target of a return that was overwritten. The main result
therefore asks that the body names only instructions that have been created, and that no overwritten
instruction names one that is not placed. A branch beyond the last instruction shows that the first
condition is needed.
-/

namespace Splice

variable {place : Nat → Nat} {outer inner body woven : Body} {extra region : Region}
variable {regions : List Region} {method : Method} {wrap : Wrap} {binder : Binder}

/-! ## Ranges moved back -/

namespace Region

theorem isSound_of_shift (mono : StrictMono place) (sound : (region.shift place).IsSound) :
    region.IsSound where
  guarded := mono.lt_iff_lt.mp sound.guarded
  handler := mono.lt_iff_lt.mp sound.handler
  apart := (Range.isDisjoint_shift mono region.guarded region.handler).symm.trans sound.apart

theorem nests_of_shift (mono : StrictMono place) {left right : Region}
    (nests : (left.shift place).Nests (right.shift place)) : left.Nests right := by
  intro inner innerMember outer outerMember
  rw [← Range.nests_shift mono]
  apply nests
  · rw [ranges_shift]
    exact List.mem_map_of_mem innerMember
  · rw [ranges_shift]
    exact List.mem_map_of_mem outerMember

end Region

namespace Body

/-- A clause whose boundaries are all placed has its region. -/
theorem exists_isPlacedIn {clause : Clause} (placed : ∀ id ∈ clause.boundaries, id ∈ body.order) :
    ∃ region : Region, region.clause = clause ∧ region.IsPlacedIn body := by
  have located : ∀ id ∈ clause.boundaries, ∃ position, body.position? id = some position :=
    fun id member => mem_order_iff.mp (placed id member)
  simp only [Clause.boundaries, List.forall_mem_cons] at located
  obtain ⟨⟨tryStart, startsTry⟩, ⟨tryEnd, endsTry⟩, ⟨handlerStart, startsHandler⟩,
    ⟨handlerEnd, endsHandler⟩, _⟩ := located
  exact ⟨⟨clause, ⟨tryStart, tryEnd⟩, ⟨handlerStart, handlerEnd⟩⟩, rfl, startsTry, endsTry,
    startsHandler, endsHandler⟩

/-- Clauses whose boundaries are all placed have their regions. -/
theorem exists_hasRegions
    (placed : ∀ clause ∈ body.clauses, ∀ id ∈ clause.boundaries, id ∈ body.order) :
    ∃ regions, body.HasRegions regions := by
  have each : ∀ clauses : List Clause,
      (∀ clause ∈ clauses, ∀ id ∈ clause.boundaries, id ∈ body.order) →
        ∃ regions : List Region, regions.map (·.clause) = clauses ∧
          ∀ region ∈ regions, region.IsPlacedIn body := by
    intro clauses
    induction clauses with
    | nil => exact fun _ => ⟨[], rfl, nofun⟩
    | cons clause rest ih =>
        intro placed
        rw [List.forall_mem_cons] at placed
        obtain ⟨regions, rfl, placedRest⟩ := ih placed.2
        obtain ⟨region, rfl, here⟩ := exists_isPlacedIn placed.1
        exact ⟨region :: regions, rfl, List.forall_mem_cons.mpr ⟨here, placedRest⟩⟩
  obtain ⟨regions, clauses, located⟩ := each body.clauses placed
  exact ⟨regions, clauses, located⟩

/-- A region has a position for each boundary of its clause. -/
theorem HasRegions.mem_order (has : body.HasRegions regions) {clause : Clause}
    (member : clause ∈ body.clauses) {id : InstrId} (bounds : id ∈ clause.boundaries) :
    id ∈ body.order := by
  rw [← has.clauses] at member
  obtain ⟨region, owned, rfl⟩ := List.mem_map.mp member
  have placed := has.placed region owned
  simp only [Clause.boundaries, List.mem_cons, List.not_mem_nil, or_false] at bounds
  rcases bounds with rfl | rfl | rfl | rfl
  · exact mem_order_iff.mpr ⟨_, placed.tryStart⟩
  · exact mem_order_iff.mpr ⟨_, placed.tryEnd⟩
  · exact mem_order_iff.mpr ⟨_, placed.handlerStart⟩
  · exact mem_order_iff.mpr ⟨_, placed.handlerEnd⟩

/-- A body in order whose targets and boundaries are placed is accepted if a body that surrounds it
is: its ranges are those of the other moved back. -/
theorem Surrounds.check_of_wellFormed (surrounds : outer.Surrounds place extra inner)
    (wellFormed : outer.WellFormed regions) {code : List Placed} (places : inner.Places code)
    (targets : ∀ placed ∈ code, ∀ target, placed.2.target? = some target → target ∈ inner.order)
    (boundaries : ∀ clause ∈ inner.clauses, ∀ id ∈ clause.boundaries, id ∈ inner.order) :
    inner.check = .ok () := by
  obtain ⟨own, has⟩ := exists_hasRegions boundaries
  obtain rfl := wellFormed.hasRegions.unique (surrounds.hasRegions has)
  have mono := surrounds.mono
  refine check_eq_ok_iff.mpr ⟨own, fun _ => places.created, places.nodup, ?_, has, ?_, ?_⟩
  · rw [places.instructions_eq]
    exact targets
  · intro region member
    apply Region.isSound_of_shift mono
    exact wellFormed.sound _ (List.mem_append_left _ (List.mem_map_of_mem member))
  · have nested := (List.pairwise_append.mp wellFormed.nested).1
    rw [List.pairwise_map] at nested
    exact nested.imp (Region.nests_of_shift mono)

end Body

/-! ## Which ids are old -/

private theorem le_of_mem_numbered {start : Nat} {instructions : List Instruction}
    {placed : Placed} (member : placed ∈ numbered start instructions) : start ≤ placed.1.index := by
  obtain ⟨position, found⟩ := List.mem_iff_getElem?.mp member
  rw [getElem?_numbered, Option.map_eq_some_iff] at found
  obtain ⟨_, _, rfl⟩ := found
  exact Nat.le_add_right start position

private theorem le_of_mem_guardCode {start : Nat} {handler : List Instruction}
    {returnSlot : Option Nat} {placed : Placed}
    (member : placed ∈ guardCode start handler returnSlot) :
    start ≤ placed.1.index := by
  simp only [guardCode, List.mem_append, List.mem_cons] at member
  rcases member with handles | rfl | rfl | exits
  · exact le_of_mem_numbered handles
  · exact Nat.le_add_right_of_le (Nat.le_add_right _ _)
  · exact Nat.le_add_right _ _
  · exact Nat.le_trans (Nat.le_add_right_of_le (Nat.le_add_right _ _)) (le_of_mem_numbered exits)

private theorem old_or_le_of_mem_routed {exit : InstrId} {returnSlot : Option Nat} {fresh : Nat}
    {code : List Placed} {placed : Placed} (member : placed ∈ routed exit returnSlot fresh code) :
    (∃ instruction, (placed.1, instruction) ∈ code) ∨ fresh ≤ placed.1.index := by
  induction code generalizing fresh with
  | nil => cases member
  | cons head rest ih =>
      have here : (head.1, head.2) ∈ head :: rest := List.mem_cons_self
      have later : (∃ instruction, (placed.1, instruction) ∈ rest) →
          ∃ instruction, (placed.1, instruction) ∈ head :: rest :=
        fun ⟨instruction, member⟩ => ⟨instruction, List.mem_cons_of_mem head member⟩
      rw [routed] at member
      split at member
      next =>
        rcases List.mem_append.mp member with member | member
        · cases returnSlot with
          | none =>
              rw [routedReturn, List.mem_singleton] at member
              rw [member]
              exact .inl ⟨_, here⟩
          | some slot =>
              simp only [routedReturn, List.mem_cons, List.not_mem_nil, or_false] at member
              rcases member with rfl | rfl
              · exact .inl ⟨_, here⟩
              · exact .inr (Nat.le_refl _)
        · exact (ih member).imp later (Nat.le_trans (Nat.le_add_right _ _))
      next =>
        rcases List.mem_cons.mp member with rfl | member
        · exact .inl ⟨_, here⟩
        · exact (ih member).imp_left later

namespace Body

/-- The ids placed in the one body that exist in the other are placed there as well. -/
def AddsFresh (after before : Body) : Prop :=
  ∀ id ∈ after.order, id.index < before.arena.size → id ∈ before.order

variable {first : InstrId} {code : List Placed}

theorem IsGuarded.addsFresh {exception : TypeExpr} {handler : List Instruction}
    (isGuarded : woven.IsGuarded body method exception handler first code) :
    woven.AddsFresh body := by
  intro id placed created
  rw [isGuarded.places.order, List.map_append, List.mem_append] at placed
  rcases placed with old | added
  · rwa [isGuarded.original.order]
  · obtain ⟨_, member, rfl⟩ := List.mem_map.mp added
    exact absurd created (Nat.not_lt.mpr (le_of_mem_guardCode member))

theorem IsMeasured.addsFresh {profiler : TypeExpr} {members : ProfilerMembers}
    (isMeasured : woven.IsMeasured body method profiler members first code) :
    woven.AddsFresh body := by
  intro id placed created
  rw [isMeasured.places.order, List.mem_map] at placed
  obtain ⟨placed, member, rfl⟩ := placed
  simp only [measureCode, measureTail, List.mem_append, List.mem_cons] at member
  have old : (∃ instruction, (placed.1, instruction) ∈ code) ∨
      body.arena.size ≤ placed.1.index := by
    rcases member with (start | inside) | (rfl | stop) | rfl | exits
    · exact .inr (le_of_mem_numbered start)
    · exact (old_or_le_of_mem_routed inside).imp_right (Nat.le_trans (Nat.le_add_right _ _))
    · exact .inr (Nat.le_add_right _ _)
    · have fresh := le_of_mem_numbered stop
      exact .inr (by omega)
    · exact .inr (Nat.le_add_right _ _)
    · have fresh := le_of_mem_numbered exits
      exact .inr (by omega)
  rcases old with ⟨instruction, member⟩ | fresh
  · rw [isMeasured.original.order]
    exact List.mem_map.mpr ⟨_, member, rfl⟩
  · exact absurd created (Nat.not_lt.mpr fresh)

end Body

/-! ## Flaws that stay -/

namespace Wrap

/-- Whether the wrap puts other code in place of the instruction. -/
def overwrites (wrap : Wrap) (placed : Placed) : Bool :=
  match wrap with
  | guard _ _ _ => false
  | measure _ => isReturn placed

/-- No flaw of the body is lost in what the wrap makes of it: the body names only instructions that
have been created, and those that are overwritten name placed ones. -/
structure Exposes (wrap : Wrap) (body : Body) : Prop where
  targets : ∀ placed ∈ body.instructions, ∀ target, placed.2.target? = some target →
    target.index < body.arena.size
  boundaries : ∀ clause ∈ body.clauses, ∀ id ∈ clause.boundaries, id.index < body.arena.size
  overwritten : ∀ placed ∈ body.instructions, wrap.overwrites placed = true →
    ∀ target, placed.2.target? = some target → target ∈ body.order

/-- What a wrap makes of a body in order, as far as the check is concerned. -/
private theorem check_of_surrounds (exposes : wrap.Exposes body)
    (surrounds : woven.Surrounds place extra body) (checked : woven.check = .ok ())
    (places : body.Places body.instructions) (addsFresh : woven.AddsFresh body)
    (kept : ∀ placed ∈ body.instructions, wrap.overwrites placed = false →
      placed ∈ woven.instructions) : body.check = .ok () := by
  obtain ⟨regions, wellFormed⟩ := Body.check_eq_ok_iff.mp checked
  refine surrounds.check_of_wellFormed wellFormed places ?_ ?_
  · intro placed member target aims
    cases overwritten : wrap.overwrites placed with
    | true => exact exposes.overwritten placed member overwritten target aims
    | false =>
        have stillPlaced := wellFormed.targets placed (kept placed member overwritten) target aims
        exact addsFresh target stillPlaced (exposes.targets placed member target aims)
  · intro clause member id bounds
    have inTable : clause ∈ woven.clauses := by
      rw [surrounds.clauses]
      exact List.mem_append_left _ member
    have stillPlaced := wellFormed.hasRegions.mem_order inTable bounds
    exact addsFresh id stillPlaced (exposes.boundaries clause member id bounds)

/-- A body that a wrap accepts was accepted before, unless the wrap hides what is wrong with it. -/
theorem check_of_applyTo (exposes : wrap.Exposes body)
    (applied : (wrap.applyTo method body binder).1 = .ok woven) : body.check = .ok () := by
  cases wrap with
  | guard exception handler rethrow =>
      simp only [applyTo] at applied
      cases found : (binder.handlerMembers handler).1 with
      | error error => simp [found, Except.bind] at applied
      | ok members =>
          simp only [found, Except.bind, mapError_eq_ok_iff] at applied
          obtain ⟨checked, first, code, isGuarded⟩ := Body.isGuarded_of_guard applied
          obtain rfl := isGuarded.original.instructions_eq
          have surrounds := isGuarded.surrounds (guardHandler_ne_nil _ _ _ _)
          refine check_of_surrounds exposes surrounds checked isGuarded.original
            isGuarded.addsFresh ?_
          intro placed member _
          rw [isGuarded.places.instructions_eq]
          exact List.mem_append_left _ member
  | measure profiler =>
      simp only [applyTo] at applied
      cases found : (binder.profilerMembers profiler).1 with
      | error error => simp [found, Except.bind] at applied
      | ok members =>
          simp only [found, Except.bind, mapError_eq_ok_iff] at applied
          obtain ⟨checked, first, code, isMeasured⟩ := Body.isMeasured_of_measure applied
          obtain rfl := isMeasured.original.instructions_eq
          refine check_of_surrounds exposes isMeasured.surrounds checked isMeasured.original
            isMeasured.addsFresh ?_
          intro placed member kept
          rw [isMeasured.places.instructions_eq]
          obtain ⟨position, found⟩ := List.mem_iff_getElem?.mp member
          exact List.mem_of_getElem? (getElem?_measureCode_kept found kept)

/-- A wrap whose members are found fails for a flaw only. -/
theorem applyTo_of_resolves (resolves : wrap.Resolves binder) (method : Method) (body : Body) :
    (wrap.applyTo method body binder).2 = wrap.binderAfter binder ∧
      ((∃ woven, (wrap.applyTo method body binder).1 = .ok woven) ∨
        ∃ flaw, (wrap.applyTo method body binder).1 = .error (.flawed flaw)) := by
  have flawedOrNot : ∀ result : Except Flaw Body,
      (∃ woven, result.mapError Error.flawed = .ok woven) ∨
        ∃ flaw, result.mapError Error.flawed = .error (.flawed flaw) := by
    intro result
    cases result with
    | ok woven => exact .inl ⟨woven, rfl⟩
    | error flaw => exact .inr ⟨flaw, rfl⟩
  cases wrap with
  | guard exception handler rethrow =>
      obtain ⟨members, found⟩ := resolves
      simp only [applyTo, found]
      exact ⟨rfl, flawedOrNot _⟩
  | measure profiler =>
      obtain ⟨members, found⟩ := resolves
      simp only [applyTo, found]
      exact ⟨rfl, flawedOrNot _⟩

end Wrap

/-- A flawed body is never woven, as long as the wrap hides none of its flaws. The wrap fails with a
flaw, and a weaving run reports that and keeps the method. -/
theorem wrap_of_check_ne_ok (bodied : method.body = some body) (flawed : body.check ≠ .ok ())
    (resolves : wrap.Resolves binder) (exposes : wrap.Exposes body) :
    ∃ flaw, (method.wrap wrap binder).1 = .error (.flawed flaw) ∧
      ∀ (settings : Settings) (concern : Concern) (applied rest : List Concern),
        settings.wrapFor concern = wrap →
          settings.weaveConcerns applied (concern :: rest) method binder =
            (.failed applied concern (.flawed flaw), method, wrap.binderAfter binder) := by
  obtain ⟨after, ⟨woven, applied⟩ | ⟨flaw, failed⟩⟩ := wrap.applyTo_of_resolves resolves method body
  · exact absurd (Wrap.check_of_applyTo exposes applied) flawed
  · have wraps : method.wrap wrap binder = (.error (.flawed flaw), wrap.binderAfter binder) := by
      simp only [Method.wrap, bodied, failed, after]
      rfl
    refine ⟨flaw, congrArg Prod.fst wraps, ?_⟩
    intro settings concern applied rest wanted
    simp only [Settings.weaveConcerns, wanted, wraps]

namespace Sample

/-- A return behind a finally clause without a handler. -/
def inverted : Body :=
  (Body.empty.appendAll [⟨.nop, .none⟩, ⟨.nop, .none⟩, ⟨.ret, .none⟩]).addClause
    (.finishing ⟨0⟩ ⟨1⟩ ⟨1⟩)

/-- A branch to the id behind the last instruction. -/
def dangling : List Instruction := [⟨.br, .target ⟨2⟩⟩, ⟨.ret, .none⟩]

end Sample

/-- A clause without a handler keeps a method from being measured. -/
theorem wrap_of_check_ne_ok_inverted :
    ∃ flaw, (({ Sample.method .void [] with body := some Sample.inverted } : Method).wrap
        (.measure Sample.monitorType) Sample.binder).1 = .error (.flawed flaw) ∧
      ∀ (settings : Settings) (concern : Concern) (applied rest : List Concern),
        settings.wrapFor concern = .measure Sample.monitorType →
          settings.weaveConcerns applied (concern :: rest)
              { Sample.method .void [] with body := some Sample.inverted } Sample.binder =
            (.failed applied concern (.flawed flaw),
              { Sample.method .void [] with body := some Sample.inverted },
              (Wrap.measure Sample.monitorType).binderAfter Sample.binder) := by
  have profiles : (Sample.binder.profilerMembers Sample.monitorType).1.toOption.any
      (fun _ => true) = true := by decide +kernel
  obtain ⟨members, found, _⟩ := exists_eq_ok_of_any profiles
  have resolves : (Wrap.measure Sample.monitorType).Resolves Sample.binder := ⟨members, found⟩
  have exposes : (Wrap.measure Sample.monitorType).Exposes Sample.inverted :=
    ⟨by decide, by decide, by decide⟩
  exact wrap_of_check_ne_ok rfl (by decide) resolves exposes

/-- A method that branches beyond its last instruction is woven all the same: the branch then leads
into the handler, whose first instruction has taken the id. -/
theorem wrap_of_dangling_target :
    (Body.empty.appendAll Sample.dangling).check = .error (.unplacedTarget .br ⟨0⟩ ⟨2⟩) ∧
      (Wrap.guard Sample.exceptionType Sample.monitorType false).Resolves Sample.binder ∧
      ∃ woven after, ((Sample.method .void Sample.dangling).wrap
          (.guard Sample.exceptionType Sample.monitorType false) Sample.binder).1 = .ok woven ∧
        woven.body = some after ∧ after.get? ⟨0⟩ = some ⟨.br, .target ⟨2⟩⟩ ∧
        after.position? ⟨2⟩ = some 2 := by
  have handles : (Sample.binder.handlerMembers Sample.monitorType).1.toOption.any
      (fun _ => true) = true := by decide +kernel
  obtain ⟨members, found, _⟩ := exists_eq_ok_of_any handles
  have wraps : ((Sample.method .void Sample.dangling).wrap
      (.guard Sample.exceptionType Sample.monitorType false) Sample.binder).1.toOption.any
        (fun woven => woven.body.any fun after =>
          after.get? ⟨0⟩ == some ⟨.br, .target ⟨2⟩⟩ && after.position? ⟨2⟩ == some 2) = true := by
    decide +kernel
  obtain ⟨woven, wraps, shape⟩ := exists_eq_ok_of_any wraps
  obtain ⟨after, bodied, shape⟩ := (Option.any_eq_true ..).mp shape
  rw [Bool.and_eq_true, beq_iff_eq, beq_iff_eq] at shape
  exact ⟨by decide, ⟨members, found⟩, woven, after, wraps, bodied, shape⟩

end Splice
