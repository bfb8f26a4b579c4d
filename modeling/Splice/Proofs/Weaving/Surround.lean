import Splice.Weaving.Wrap
import Splice.Proofs.Emulation.Enclosure
import Splice.Proofs.Emulation.Execution

/-!
# Surrounded bodies

What guarding and measuring a body have in common. The placed instructions of the body stand in the
woven body in their order, and one more clause protects all of them. Whatever the weaving adds, the
regions of the body move along, and the woven body is well-formed if the body is.
-/

namespace Splice

variable {place : Nat → Nat}

/-! ## Moved ranges -/

namespace Range

theorem isDisjoint_shift (mono : StrictMono place) (left right : Range) :
    (left.shift place).isDisjoint (right.shift place) = left.isDisjoint right := by
  simp [shift, isDisjoint, mono.le_iff_le]

theorem nests_shift (mono : StrictMono place) (left right : Range) :
    (left.shift place).nests (right.shift place) = left.nests right := by
  simp [shift, nests, isDisjoint, isWithin, mono.le_iff_le]

end Range

namespace Region

theorem isSound_shift (mono : StrictMono place) {region : Region} (sound : region.IsSound) :
    (region.shift place).IsSound where
  guarded := mono sound.guarded
  handler := mono sound.handler
  apart := (Range.isDisjoint_shift mono region.guarded region.handler).trans sound.apart

theorem ranges_shift (region : Region) :
    (region.shift place).ranges = region.ranges.map (·.shift place) := rfl

theorem nests_shift (mono : StrictMono place) {left right : Region} (nests : left.Nests right) :
    (left.shift place).Nests (right.shift place) := by
  intro inner innerMember outer outerMember
  rw [ranges_shift, List.mem_map] at innerMember outerMember
  obtain ⟨inner, innerMember, rfl⟩ := innerMember
  obtain ⟨outer, outerMember, rfl⟩ := outerMember
  rw [Range.nests_shift mono]
  exact nests inner innerMember outer outerMember

end Region

namespace Body

/-! ## The additional clause -/

/-- The outer body has the instructions of the inner one at places of their own. The extra region is
the last of its table. It protects all of those instructions, and its handler follows them. -/
structure Surrounds (outer : Body) (place : Nat → Nat) (extra : Region) (inner : Body) : Prop where
  mono : StrictMono place
  position : ∀ id position, inner.position? id = some position →
    outer.position? id = some (place position)
  clauses : outer.clauses = inner.clauses ++ [extra.clause]
  placed : extra.IsPlacedIn outer
  guards : ∀ position < inner.length, extra.guarded.contains (place position)
  follows : extra.handler.start = extra.guarded.stop
  handles : extra.handler.start < extra.handler.stop

variable {outer inner : Body} {extra : Region} {regions : List Region}

namespace Surrounds

theorem hasRegions (surrounds : outer.Surrounds place extra inner)
    (has : inner.HasRegions regions) :
    outer.HasRegions (regions.map (·.shift place) ++ [extra]) where
  clauses := by
    rw [surrounds.clauses, ← has.clauses, List.map_append, List.map_map]
    rfl
  placed := by
    intro region member
    rcases List.mem_append.mp member with member | member
    · obtain ⟨own, owned, rfl⟩ := List.mem_map.mp member
      have placed := has.placed own owned
      exact ⟨surrounds.position _ _ placed.tryStart, surrounds.position _ _ placed.tryEnd,
        surrounds.position _ _ placed.handlerStart, surrounds.position _ _ placed.handlerEnd⟩
    · rw [List.mem_singleton.mp member]
      exact surrounds.placed

/-- The extra region protects both ranges of every region of the inner body. -/
theorem within_guarded (surrounds : outer.Surrounds place extra inner)
    (has : inner.HasRegions regions) {region : Region} (member : region ∈ regions) {range : Range}
    (owned : range ∈ (region.shift place).ranges) :
    extra.guarded.start ≤ range.start ∧ range.stop < extra.guarded.stop := by
  have placed := has.placed region member
  have inside : ∀ position, (∃ id, inner.position? id = some position) →
      extra.guarded.start ≤ place position ∧ place position < extra.guarded.stop := by
    rintro position ⟨id, located⟩
    have guards := surrounds.guards position (position?_lt_length located)
    simpa [Range.contains] using guards
  rw [Region.ranges_shift, Region.ranges, List.map_cons, List.map_cons, List.map_nil,
    List.mem_cons, List.mem_singleton] at owned
  rcases owned with rfl | rfl
  · exact ⟨(inside _ ⟨_, placed.tryStart⟩).1, (inside _ ⟨_, placed.tryEnd⟩).2⟩
  · exact ⟨(inside _ ⟨_, placed.handlerStart⟩).1, (inside _ ⟨_, placed.handlerEnd⟩).2⟩

/-- No region protects what stands behind the code of the inner body. -/
theorem unguarded_behind (surrounds : outer.Surrounds place extra inner)
    (has : inner.HasRegions regions) (offset : Nat) :
    ∀ region ∈ regions.map (·.shift place) ++ [extra],
      region.guarded.contains (extra.guarded.stop + offset) = false := by
  intro region member
  have stops : region.guarded.stop ≤ extra.guarded.stop := by
    rcases List.mem_append.mp member with moved | added
    · obtain ⟨own, owned, rfl⟩ := List.mem_map.mp moved
      have within := surrounds.within_guarded has owned
        (List.mem_cons_self : (own.shift place).guarded ∈ (own.shift place).ranges)
      exact Nat.le_of_lt within.2
    · rw [List.mem_singleton.mp added]
  simp only [Range.contains, Bool.and_eq_false_iff, decide_eq_false_iff_not]
  omega

/-- The ranges of the inner body lie in the protected range of the extra region and apart from its
handler. -/
theorem nests_extra (surrounds : outer.Surrounds place extra inner)
    (has : inner.HasRegions regions) {region : Region} (member : region ∈ regions) :
    (region.shift place).Nests extra := by
  intro inner owned other otherMember
  obtain ⟨start, stop⟩ := surrounds.within_guarded has member owned
  have apart := surrounds.follows
  rw [Region.ranges, List.mem_cons, List.mem_singleton] at otherMember
  rcases otherMember with rfl | rfl
  · simp only [Range.nests, Range.isWithin, Bool.or_eq_true, Bool.and_eq_true, decide_eq_true_eq]
    omega
  · simp only [Range.nests, Range.isDisjoint, Bool.or_eq_true, decide_eq_true_eq]
    omega

theorem isSound_extra (surrounds : outer.Surrounds place extra inner)
    (notEmpty : 0 < inner.length) : extra.IsSound where
  guarded := by
    have guards := surrounds.guards 0 notEmpty
    simp only [Range.contains, Bool.and_eq_true, decide_eq_true_eq] at guards
    omega
  handler := surrounds.handles
  apart := by
    have apart := surrounds.follows
    simp only [Range.isDisjoint, Bool.or_eq_true, decide_eq_true_eq]
    omega

/-- A body that surrounds a well-formed one is well-formed if its code and its targets are sound. -/
theorem wellFormed (surrounds : outer.Surrounds place extra inner)
    (wellFormed : inner.WellFormed regions) (notEmpty : 0 < inner.length) {code : List Placed}
    (places : outer.Places code)
    (targets : ∀ placed ∈ code, ∀ target, placed.2.target? = some target → target ∈ outer.order) :
    outer.WellFormed (regions.map (·.shift place) ++ [extra]) where
  created := fun _ => places.created
  nodup := places.nodup
  targets := by
    rw [places.instructions_eq]
    exact targets
  hasRegions := surrounds.hasRegions wellFormed.hasRegions
  sound := by
    intro region member
    rcases List.mem_append.mp member with member | member
    · obtain ⟨own, owned, rfl⟩ := List.mem_map.mp member
      exact Region.isSound_shift surrounds.mono (wellFormed.sound own owned)
    · rw [List.mem_singleton.mp member]
      exact surrounds.isSound_extra notEmpty
  nested := by
    rw [List.pairwise_append, List.pairwise_map]
    refine ⟨wellFormed.nested.imp (Region.nests_shift surrounds.mono), List.pairwise_singleton ..,
      ?_⟩
    intro left leftMember right rightMember
    obtain ⟨region, member, rfl⟩ := List.mem_map.mp leftMember
    rw [List.mem_singleton.mp rightMember]
    exact surrounds.nests_extra wellFormed.hasRegions member

theorem mem_order (surrounds : outer.Surrounds place extra inner) {id : InstrId}
    (placed : id ∈ inner.order) : id ∈ outer.order := by
  obtain ⟨position, located⟩ := mem_order_iff.mp placed
  exact mem_order_iff.mpr ⟨_, surrounds.position id position located⟩

/-- A routine that runs the outer body encloses one that runs the inner body. -/
theorem encloses (surrounds : outer.Surrounds place extra inner) (before after : String)
    (isVoid : Bool) (regions : List Region)
    (fetch : ∀ position id instruction,
      (⟨before, isVoid, inner, regions⟩ : Routine).fetch? position = some (id, instruction) →
      instruction.op ≠ .ret →
      (⟨after, isVoid, outer, regions.map (·.shift place) ++ [extra]⟩ : Routine).fetch?
          (place position) = some (id, instruction) ∧
        place (position + 1) = place position + 1) :
    (⟨after, isVoid, outer, regions.map (·.shift place) ++ [extra]⟩ : Routine).Encloses place extra
      ⟨before, isVoid, inner, regions⟩ where
  isVoid := rfl
  regions := rfl
  mono := surrounds.mono
  position := fun id position located =>
    ⟨position?_lt_length located, surrounds.position id position located⟩
  fetch := fetch
  guards := surrounds.guards
  spares := by
    intro position inside
    have guards := surrounds.guards position inside
    have follows := surrounds.follows
    simp only [Range.contains, Bool.and_eq_true, decide_eq_true_eq, Bool.and_eq_false_iff,
      decide_eq_false_iff_not] at guards ⊢
    omega

end Surrounds

end Body

/-! ## The exit -/

theorem target?_exitHead (returnSlot : Option Nat) : (Body.exitHead returnSlot).target? = none := by
  cases returnSlot <;> rfl

theorem target?_of_mem_exitTail {returnSlot : Option Nat} {instruction : Instruction}
    (member : instruction ∈ Body.exitTail returnSlot) : instruction.target? = none := by
  cases returnSlot with
  | none => cases member
  | some slot =>
      rw [Body.exitTail, List.mem_singleton] at member
      rw [member]
      rfl

/-- The exit returns. -/
theorem ret_mem_exit (start : Nat) (id : InstrId) (returnSlot : Option Nat) :
    ∃ placed ∈ (id, Body.exitHead returnSlot) :: numbered start (Body.exitTail returnSlot),
      placed.2.op = .ret := by
  cases returnSlot with
  | none => exact ⟨_, List.mem_cons_self, rfl⟩
  | some slot => exact ⟨_, List.mem_cons_of_mem _ List.mem_cons_self, rfl⟩

/-! ## The slots of the added code -/

/-- The types of the slots for the value that a method returns, if it returns one. -/
def Method.returnTypes (method : Method) : List TypeExpr :=
  if method.isVoid then [] else [method.returns]

/-- The first slot after those of the body, if the method returns a value. -/
def Method.returnSlot? (method : Method) (body : Body) : Option Nat :=
  if method.isVoid then none else some body.slots.size

/-- The slot in which added code keeps a value of its own. -/
def Body.addedSlot (body : Body) (method : Method) : Nat :=
  body.slots.size + method.returnTypes.length

/-- What the slots that a weaving adds hold at first. The last one is of the given type. -/
def Method.spareSlots (method : Method) (type : TypeExpr) : Array Value :=
  ((method.returnTypes ++ [type]).map Value.defaultFor).toArray

def Body.withSlots (body : Body) (types : List TypeExpr) : Body :=
  { body with slots := body.slots ++ types.toArray }

/-- Adding the slot for the returned value and one more succeeds when there is room for both. -/
theorem addSlots_bind {β : Type} (method : Method) (body : Body) (type : TypeExpr)
    (next : Option Nat → Nat → Body → Except Flaw β) :
    (do
      let (returnSlot, wider) ← method.addReturnSlot body
      let (slot, wider) ← wider.addSlot type
      next returnSlot slot wider) =
    if body.addedSlot method < Body.slotLimit then
      next (method.returnSlot? body) (body.addedSlot method)
        (body.withSlots (method.returnTypes ++ [type]))
    else .error .tooManySlots := by
  unfold Body.addedSlot Method.addReturnSlot Method.returnTypes Method.returnSlot? Body.addSlot
    Body.withSlots
  cases method.isVoid with
  | true =>
      simp only [if_true, ok_bind, List.length_nil, Nat.add_zero, List.nil_append]
      split <;> simp [bind, Except.bind]
  | false =>
      simp only [Bool.false_eq_true, if_false, List.length_singleton]
      by_cases room : body.slots.size < Body.slotLimit
      · by_cases roomForBoth : body.slots.size + 1 < Body.slotLimit
        · have both : (body.slots.push method.returns).push type =
              body.slots ++ #[method.returns, type] := by
            rw [Array.push_eq_append, Array.push_eq_append, Array.append_assoc]
            rfl
          simp [room, roomForBoth, both, bind, Except.bind, pure, Except.pure]
        · simp [room, roomForBoth, bind, Except.bind, pure, Except.pure]
      · rw [if_neg room, if_neg (by omega)]
        rfl

end Splice
