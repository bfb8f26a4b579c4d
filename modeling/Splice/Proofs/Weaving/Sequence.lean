import Splice.Proofs.Weaving.Guarded
import Splice.Proofs.Weaving.Measured
import Splice.Proofs.Weaving.Members

/-!
# Sequences of wraps

Weaving can be repeated. A body that is accepted and returns somewhere stays so under every wrap, so
any number of wraps succeed one after the other. The exception table grows at its end, and each new
clause protects all that was there before.
-/

namespace Splice

variable {place : Nat → Nat} {outer inner body original : Body} {extra : Region}
variable {regions originals : List Region} {method : Method} {wrap : Wrap} {binder : Binder}

/-! ## Order of the table -/

theorem Range.isWithin_shift (mono : StrictMono place) (left right : Range) :
    (left.shift place).isWithin (right.shift place) = left.isWithin right := by
  simp [shift, isWithin, mono.le_iff_le]

namespace Region

/-- The protected range holds both ranges of the other region. -/
def Protects (outer inner : Region) : Prop :=
  ∀ range ∈ inner.ranges, range.isWithin outer.guarded

/-- A region with a range strictly inside a range of another one is listed before it. -/
def InnerFirst (regions : List Region) : Prop :=
  regions.Pairwise fun earlier later =>
    ∀ inside ∈ later.ranges, ∀ around ∈ earlier.ranges, inside.isWithin around → inside = around

theorem protects_shift (mono : StrictMono place) {outer inner : Region}
    (protects : outer.Protects inner) : (outer.shift place).Protects (inner.shift place) := by
  intro range member
  rw [ranges_shift, List.mem_map] at member
  obtain ⟨own, owned, rfl⟩ := member
  exact (Range.isWithin_shift mono own outer.guarded).trans (protects own owned)

end Region

namespace Body.Surrounds

theorem protects (surrounds : outer.Surrounds place extra inner)
    (has : inner.HasRegions regions) {region : Region} (member : region ∈ regions) :
    extra.Protects (region.shift place) := by
  intro range owned
  obtain ⟨start, stop⟩ := surrounds.within_guarded has member owned
  exact Bool.and_eq_true_iff.mpr ⟨decide_eq_true start, decide_eq_true (Nat.le_of_lt stop)⟩

/-- The extra region has no range inside a range of the inner body, so it may come last. -/
theorem innerFirst (surrounds : outer.Surrounds place extra inner)
    (has : inner.HasRegions regions) (innerFirst : Region.InnerFirst regions) :
    Region.InnerFirst (regions.map (·.shift place) ++ [extra]) := by
  rw [Region.InnerFirst, List.pairwise_append, List.pairwise_map]
  refine ⟨innerFirst.imp fun separate => ?_, List.pairwise_singleton .., ?_⟩
  · intro inside insideMember around aroundMember within
    rw [Region.ranges_shift, List.mem_map] at insideMember aroundMember
    obtain ⟨inside, insideMember, rfl⟩ := insideMember
    obtain ⟨around, aroundMember, rfl⟩ := aroundMember
    rw [Range.isWithin_shift surrounds.mono] at within
    rw [separate inside insideMember around aroundMember within]
  · intro moved movedMember last lastMember inside insideMember around aroundMember within
    obtain ⟨region, member, rfl⟩ := List.mem_map.mp movedMember
    rw [List.mem_singleton.mp lastMember] at insideMember
    obtain ⟨start, stop⟩ := surrounds.within_guarded has member aroundMember
    have follows := surrounds.follows
    simp only [Range.isWithin, Bool.and_eq_true, decide_eq_true_eq] at within
    rw [Region.ranges, List.mem_cons, List.mem_singleton] at insideMember
    have handles := surrounds.handles
    rcases insideMember with rfl | rfl <;> omega

end Body.Surrounds

/-! ## One wrap -/

namespace Wrap

/-- The kind of clause that the wrap adds. -/
def Adds (wrap : Wrap) (clause : Clause) : Prop :=
  match wrap with
  | guard exception _ _ => clause.flags = 0 ∧ clause.catchType = some exception
  | measure _ => clause.flags = Clause.finallyFlag ∧ clause.catchType = none

/-- The members that the wrap needs are found. -/
def Resolves (wrap : Wrap) (binder : Binder) : Prop :=
  match wrap with
  | guard _ handler _ => ∃ members, (binder.handlerMembers handler).1 = .ok members
  | measure profiler => ∃ members, (binder.profilerMembers profiler).1 = .ok members

/-- The binder after the members have been found. -/
def binderAfter (wrap : Wrap) (binder : Binder) : Binder :=
  match wrap with
  | guard _ handler _ => (binder.handlerMembers handler).2
  | measure profiler => (binder.profilerMembers profiler).2

/-- The type of the slot that the wrap adds for a value of its own. -/
def slotType (wrap : Wrap) : TypeExpr :=
  match wrap with
  | guard exception _ _ => exception
  | measure profiler => profiler

private theorem exists_first (returns : ∃ placed ∈ body.instructions, placed.2.op = .ret) :
    ∃ first, body.first? = some first := by
  obtain ⟨placed, member, _⟩ := returns
  cases start : body.order with
  | nil => simp [Body.instructions, start] at member
  | cons first rest => exact ⟨first, by rw [Body.first?, start, List.head?_cons]⟩

private theorem length_pos {first : InstrId} (start : body.first? = some first) :
    0 < body.length := by
  rw [Body.first?, List.head?_eq_some_iff] at start
  obtain ⟨rest, order⟩ := start
  rw [Body.length, order]
  exact Nat.succ_pos _

/-- A wrap of a well-formed body that returns somewhere succeeds, and leaves a body like that, which
surrounds the one before. -/
theorem applyTo_of_wellFormed (wellFormed : body.WellFormed regions)
    (returns : ∃ placed ∈ body.instructions, placed.2.op = .ret)
    (resolves : wrap.Resolves binder) (room : body.addedSlot method < Body.slotLimit) :
    ∃ after place extra, wrap.applyTo method body binder = (.ok after, wrap.binderAfter binder) ∧
      after.Surrounds place extra body ∧
      after.WellFormed (regions.map (·.shift place) ++ [extra]) ∧
      (∃ placed ∈ after.instructions, placed.2.op = .ret) ∧
      after.slots = body.slots ++ (method.returnTypes ++ [wrap.slotType]).toArray ∧
      wrap.Adds extra.clause := by
  obtain ⟨first, start⟩ := exists_first returns
  have places := wellFormed.places
  cases wrap with
  | guard exception handler rethrow =>
      obtain ⟨members, found⟩ := resolves
      obtain ⟨after, isGuarded, guards⟩ : ∃ after : Body, after.IsGuarded body method exception
          (guardHandler method members (body.addedSlot method) rethrow) first body.instructions ∧
            body.guard method exception members rethrow = _ :=
        Body.guard_of_places places start room
      have handles := guardHandler_ne_nil method members (body.addedSlot method) rethrow
      have surrounds := isGuarded.surrounds handles
      have wellFormedAfter := surrounds.wellFormed wellFormed (length_pos start) isGuarded.places
        (isGuarded.targets handles wellFormed.targets
          (Body.target?_of_mem_guardHandler method members _ rethrow))
      refine ⟨after, _, _, ?_, surrounds, wellFormedAfter, ?_, isGuarded.slots, rfl, rfl⟩
      · rw [Body.check_eq_ok_iff.mpr ⟨_, wellFormedAfter⟩, ok_bind] at guards
        simp [applyTo, binderAfter, found, guards, Except.bind, Except.mapError, pure, Except.pure]
      · rw [isGuarded.places.instructions_eq]
        exact Body.IsGuarded.hasReturn ..
  | measure profiler =>
      obtain ⟨members, found⟩ := resolves
      have someReturn : ∃ placed ∈ body.instructions, isReturn placed = true := by
        obtain ⟨placed, member, isRet⟩ := returns
        exact ⟨placed, member, beq_iff_eq.mpr isRet⟩
      obtain ⟨after, isMeasured, measures⟩ : ∃ after : Body,
          after.IsMeasured body method profiler members first body.instructions ∧
            body.measure method profiler members = _ :=
        Body.measure_of_places places start someReturn room
      have surrounds := isMeasured.surrounds
      have wellFormedAfter := surrounds.wellFormed wellFormed (length_pos start) isMeasured.places
        (isMeasured.targets wellFormed.targets)
      refine ⟨after, _, _, ?_, surrounds, wellFormedAfter, ?_, isMeasured.slots, rfl, rfl⟩
      · rw [Body.check_eq_ok_iff.mpr ⟨_, wellFormedAfter⟩, ok_bind] at measures
        simp [applyTo, binderAfter, found, measures, Except.bind, Except.mapError, pure,
          Except.pure]
      · rw [isMeasured.places.instructions_eq]
        exact Body.IsMeasured.hasReturn ..

end Wrap

/-! ## Any number of wraps -/

/-- The members that each wrap needs are found, in the binder that those before it leave. -/
def Wrap.AllResolve : List Wrap → Binder → Prop
  | [], _ => True
  | wrap :: rest, binder => wrap.Resolves binder ∧ AllResolve rest (wrap.binderAfter binder)

/-- Wrap a method several times. -/
def Method.wrapAll (method : Method) : List Wrap → Binder → Except Error Method × Binder
  | [], binder => (.ok method, binder)
  | wrap :: rest, binder =>
    match method.wrap wrap binder with
    | (.error error, binder) => (.error error, binder)
    | (.ok woven, binder) => woven.wrapAll rest binder

/-- How many slots a wrap adds. -/
def Method.slotsPerWrap (method : Method) : Nat :=
  method.returnTypes.length + 1

/-- What wraps have made of a body. The table has a clause more for each of them, in their order,
and every new clause protects the ranges of all clauses before it. -/
structure Body.IsWovenFrom (body original : Body) (slotsPerWrap : Nat) (done : List Wrap)
    (old new : List Region) : Prop where
  wellFormed : body.WellFormed (old ++ new)
  returns : ∃ placed ∈ body.instructions, placed.2.op = .ret
  slots : body.slots.size = original.slots.size + done.length * slotsPerWrap
  clauses : old.map (·.clause) = original.clauses
  added : List.Forall₂ Wrap.Adds done (new.map (·.clause))
  protectsOld : ∀ later ∈ new, ∀ earlier ∈ old, later.Protects earlier
  protectsNew : new.Pairwise fun earlier later => later.Protects earlier
  innerFirst : ∀ originals, original.HasRegions originals → Region.InnerFirst originals →
    Region.InnerFirst (old ++ new)

namespace Body.IsWovenFrom

variable {slotsPerWrap : Nat} {done : List Wrap} {old new : List Region}

theorem refl (wellFormed : body.WellFormed regions)
    (returns : ∃ placed ∈ body.instructions, placed.2.op = .ret) :
    body.IsWovenFrom body slotsPerWrap [] regions [] where
  wellFormed := by rwa [List.append_nil]
  returns := returns
  slots := by simp
  clauses := wellFormed.hasRegions.clauses
  added := .nil
  protectsOld := nofun
  protectsNew := .nil
  innerFirst := by
    intro originals has innerFirst
    rw [List.append_nil, wellFormed.hasRegions.unique has]
    exact innerFirst

/-- One more wrap. -/
theorem step (isWoven : body.IsWovenFrom original method.slotsPerWrap done old new)
    (resolves : wrap.Resolves binder) (room : body.addedSlot method < slotLimit) :
    ∃ after old new, wrap.applyTo method body binder = (.ok after, wrap.binderAfter binder) ∧
      after.IsWovenFrom original method.slotsPerWrap (done ++ [wrap]) old new := by
  obtain ⟨after, place, extra, applies, surrounds, wellFormed, returns, slots, adds⟩ :=
    Wrap.applyTo_of_wellFormed isWoven.wellFormed isWoven.returns resolves room
  have has := isWoven.wellFormed.hasRegions
  have moved : (old ++ new).map (·.shift place) ++ [extra] =
      old.map (·.shift place) ++ (new.map (·.shift place) ++ [extra]) := by
    rw [List.map_append, List.append_assoc]
  refine ⟨after, old.map (·.shift place), new.map (·.shift place) ++ [extra], applies, ?_⟩
  refine ⟨moved ▸ wellFormed, returns, ?_, ?_, ?_, ?_, ?_, ?_⟩
  · simp only [slots, Array.size_append, isWoven.slots, Method.slotsPerWrap, List.size_toArray,
      List.length_append, List.length_singleton, Nat.succ_mul, Nat.add_assoc]
  · rw [List.map_map]
    exact isWoven.clauses
  · rw [List.map_append, List.map_map]
    exact List.rel_append isWoven.added (.cons adds .nil)
  · intro later laterMember earlier earlierMember
    obtain ⟨inner, innerMember, rfl⟩ := List.mem_map.mp earlierMember
    rcases List.mem_append.mp laterMember with moved | last
    · obtain ⟨outer, outerMember, rfl⟩ := List.mem_map.mp moved
      exact Region.protects_shift surrounds.mono
        (isWoven.protectsOld outer outerMember inner innerMember)
    · rw [List.mem_singleton.mp last]
      exact surrounds.protects has (List.mem_append_left new innerMember)
  · rw [List.pairwise_append, List.pairwise_map]
    refine ⟨isWoven.protectsNew.imp (Region.protects_shift surrounds.mono),
      List.pairwise_singleton .., ?_⟩
    intro earlier earlierMember last lastMember
    obtain ⟨inner, innerMember, rfl⟩ := List.mem_map.mp earlierMember
    rw [List.mem_singleton.mp lastMember]
    exact surrounds.protects has (List.mem_append_right old innerMember)
  · intro originals hasOriginals innerFirst
    rw [← moved]
    exact surrounds.innerFirst has (isWoven.innerFirst originals hasOriginals innerFirst)

end Body.IsWovenFrom

variable {wraps done rest : List Wrap} {old new : List Region}

/-- A sequence of wraps succeeds on a body that earlier wraps have made. -/
private theorem wrapAll_of_isWovenFrom (bodied : method.body = some body)
    (isWoven : body.IsWovenFrom original method.slotsPerWrap done old new)
    (resolve : Wrap.AllResolve rest binder)
    (room : body.slots.size + rest.length * method.slotsPerWrap ≤ Body.slotLimit) :
    ∃ woven after old new, (method.wrapAll rest binder).1 = .ok woven ∧ woven.body = some after ∧
      after.IsWovenFrom original method.slotsPerWrap (done ++ rest) old new := by
  induction rest generalizing method body binder done old new with
  | nil => exact ⟨method, body, old, new, rfl, bodied, by rwa [List.append_nil]⟩
  | cons wrap rest ih =>
      obtain ⟨resolves, resolveRest⟩ := resolve
      rw [List.length_cons, Nat.succ_mul] at room
      have roomHere : body.addedSlot method < Body.slotLimit := by
        simp only [Body.addedSlot, Method.slotsPerWrap] at room ⊢
        omega
      obtain ⟨after, oldAfter, newAfter, applies, isWovenAfter⟩ := isWoven.step resolves roomHere
      have wraps : method.wrap wrap binder =
          (.ok { method with body := some after }, wrap.binderAfter binder) := by
        simp only [Method.wrap, bodied, applies]
        rfl
      have slots : after.slots.size = body.slots.size + method.slotsPerWrap := by
        rw [isWovenAfter.slots, isWoven.slots, List.length_append, List.length_singleton,
          Nat.succ_mul, Nat.add_assoc]
      have roomRest : after.slots.size + rest.length * method.slotsPerWrap ≤ Body.slotLimit := by
        rw [slots]
        omega
      have bodiedAfter : ({ method with body := some after } : Method).body = some after := rfl
      have woven := ih bodiedAfter isWovenAfter resolveRest roomRest
      rw [List.append_assoc] at woven
      simp only [Method.wrapAll, wraps]
      exact woven

theorem Wrap.allResolve_of_prefix (sofar : done <+: wraps)
    (resolve : Wrap.AllResolve wraps binder) : Wrap.AllResolve done binder := by
  obtain ⟨rest, rfl⟩ := sofar
  induction done generalizing binder with
  | nil => trivial
  | cons wrap done ih => exact ⟨resolve.1, ih resolve.2⟩

/-- Any number of wraps succeed one after the other on an accepted body that returns somewhere, as
long as their members are found and there is room for their slots. Every body on the way is accepted
and has one more clause for each wrap so far. -/
theorem wrapAll_isWovenFrom (bodied : method.body = some body) (checked : body.check = .ok ())
    (returns : ∃ placed ∈ body.instructions, placed.2.op = .ret)
    (resolve : Wrap.AllResolve wraps binder)
    (room : body.slots.size + wraps.length * method.slotsPerWrap ≤ Body.slotLimit)
    (sofar : done <+: wraps) :
    ∃ woven after old new, (method.wrapAll done binder).1 = .ok woven ∧ woven.body = some after ∧
      after.check = .ok () ∧ after.IsWovenFrom body method.slotsPerWrap done old
        new := by
  obtain ⟨regions, wellFormed⟩ := Body.check_eq_ok_iff.mp checked
  have fewer : done.length * method.slotsPerWrap ≤ wraps.length * method.slotsPerWrap :=
    Nat.mul_le_mul_right _ sofar.length_le
  have roomSofar := Nat.le_trans (Nat.add_le_add_left fewer body.slots.size) room
  obtain ⟨woven, after, old, new, wrapped, bodiedAfter, isWoven⟩ :=
    wrapAll_of_isWovenFrom bodied (.refl wellFormed returns)
      (Wrap.allResolve_of_prefix sofar resolve) roomSofar
  exact ⟨woven, after, old, new, wrapped, bodiedAfter,
    Body.check_eq_ok_iff.mpr ⟨_, isWoven.wellFormed⟩, isWoven⟩

/-- A guard and a profiler around a method that returns at once. -/
theorem wrapAll_isWovenFrom_ret :
    ∃ woven after old new, ((Sample.method .void [⟨.ret, .none⟩]).wrapAll
        [.guard Sample.exceptionType Sample.monitorType false, .measure Sample.monitorType]
        Sample.binder).1 = .ok woven ∧ woven.body = some after ∧ after.check = .ok () ∧
      after.IsWovenFrom (Body.empty.appendAll [⟨.ret, .none⟩]) 1
        [.guard Sample.exceptionType Sample.monitorType false, .measure Sample.monitorType]
        old new := by
  have handles : (Sample.binder.handlerMembers Sample.monitorType).1.toOption.any
      (fun _ => true) = true := by decide +kernel
  have profiles : ((Sample.binder.handlerMembers Sample.monitorType).2.profilerMembers
      Sample.monitorType).1.toOption.any (fun _ => true) = true := by decide +kernel
  obtain ⟨handlerMembers, handlerFound, _⟩ := exists_eq_ok_of_any handles
  obtain ⟨profilerMembers, profilerFound, _⟩ := exists_eq_ok_of_any profiles
  have resolve : Wrap.AllResolve
      [.guard Sample.exceptionType Sample.monitorType false, .measure Sample.monitorType]
      Sample.binder := ⟨⟨handlerMembers, handlerFound⟩, ⟨profilerMembers, profilerFound⟩, trivial⟩
  have returns : ∃ placed ∈ (Body.empty.appendAll [⟨.ret, .none⟩]).instructions,
      placed.2.op = .ret := ⟨_, List.mem_cons_self, rfl⟩
  exact wrapAll_isWovenFrom rfl rfl returns resolve (by decide) (List.prefix_refl _)

end Splice
