import Splice.Proofs.Code.WellFormed
import Mathlib.Data.List.Pairwise
import Mathlib.Order.CompletePartialOrder
import Mathlib.Order.Interval.Set.Disjoint
import Mathlib.Order.Interval.Set.LinearOrder
import Mathlib.Order.Preorder.Chain

/-!
# Laminar bodies

The ranges of a body read as sets of positions. The check accepts exactly the bodies whose order
and targets are sound and whose ranges form a laminar family: of two ranges either one holds the
other, or they have nothing in common. Hence the ranges around a position can be told by how far
inside they are, whatever the order of the exception table.
-/

namespace Splice

/-- Two sets of positions have nothing in common, or one of them holds the other. -/
def Laminar (left right : Set Nat) : Prop :=
  Disjoint left right ∨ left ⊆ right ∨ right ⊆ left

theorem Laminar.symm {left right : Set Nat} (laminar : Laminar left right) :
    Laminar right left := by
  rcases laminar with apart | within | around
  · exact .inl apart.symm
  · exact .inr (.inr within)
  · exact .inr (.inl around)

theorem Laminar.subset_or_subset {left right : Set Nat} {position : Nat}
    (laminar : Laminar left right) (inLeft : position ∈ left) (inRight : position ∈ right) :
    left ⊆ right ∨ right ⊆ left :=
  laminar.resolve_left fun apart => Set.disjoint_left.mp apart inLeft inRight

namespace Range

def positions (range : Range) : Set Nat := Set.Ico range.start range.stop

variable {left right : Range}

theorem isDisjoint_iff_disjoint (leftUpright : left.start < left.stop)
    (rightUpright : right.start < right.stop) :
    left.isDisjoint right ↔ Disjoint left.positions right.positions := by
  rw [positions, positions, Set.Ico_disjoint_Ico, isDisjoint, Bool.or_eq_true, decide_eq_true_iff,
    decide_eq_true_iff]
  omega

theorem isWithin_iff_subset (leftUpright : left.start < left.stop) :
    left.isWithin right ↔ left.positions ⊆ right.positions := by
  rw [positions, positions, Set.Ico_subset_Ico_iff leftUpright, isWithin, Bool.and_eq_true,
    decide_eq_true_iff, decide_eq_true_iff]

/-- By their bounds alone, a range without positions would count as apart or within. -/
theorem nests_iff_laminar (leftUpright : left.start < left.stop)
    (rightUpright : right.start < right.stop) :
    left.nests right ↔ Laminar left.positions right.positions := by
  rw [nests, Bool.or_eq_true, Bool.or_eq_true, isDisjoint_iff_disjoint leftUpright rightUpright,
    isWithin_iff_subset leftUpright, isWithin_iff_subset rightUpright, Laminar, or_assoc]
  exact or_congr_right or_comm

end Range

namespace Region

theorem IsSound.upright {region : Region} (sound : region.IsSound) :
    ∀ range ∈ region.ranges, range.start < range.stop := by
  rw [ranges, List.forall_mem_cons, List.forall_mem_singleton]
  exact ⟨sound.guarded, sound.handler⟩

end Region

namespace Body

/-- The positions from one instruction up to, and without, another. -/
def stretch (body : Body) (first last : InstrId) : Set Nat :=
  Set.Ico (body.order.idxOf first) (body.order.idxOf last)

def guarded (body : Body) (clause : Clause) : Set Nat :=
  body.stretch clause.tryStart clause.tryEnd

def handled (body : Body) (clause : Clause) : Set Nat :=
  body.stretch clause.handlerStart clause.handlerEnd

def stretches (body : Body) (clause : Clause) : List (Set Nat) :=
  [body.guarded clause, body.handled clause]

/-- Each stretch of one clause is laminar with each of the other. -/
def LaminarClauses (body : Body) (left right : Clause) : Prop :=
  ∀ inner ∈ body.stretches left, ∀ outer ∈ body.stretches right, Laminar inner outer

/-- What a body is to be so that every branch, clause and nesting in it has a meaning. -/
structure Coherent (body : Body) : Prop where
  created : ∀ id ∈ body.order, id.index < body.arena.size
  once : ∀ id ∈ body.order, body.order.count id = 1
  targets : ∀ id ∈ body.order, ∀ instruction, body.get? id = some instruction →
    ∀ target, instruction.operand = .target target → target ∈ body.order
  boundaries : ∀ clause ∈ body.clauses, ∀ id ∈ clause.boundaries, id ∈ body.order
  guardedUpright : ∀ clause ∈ body.clauses,
    body.order.idxOf clause.tryStart < body.order.idxOf clause.tryEnd
  handledUpright : ∀ clause ∈ body.clauses,
    body.order.idxOf clause.handlerStart < body.order.idxOf clause.handlerEnd
  apart : ∀ clause ∈ body.clauses, Disjoint (body.guarded clause) (body.handled clause)
  laminar : body.clauses.Pairwise body.LaminarClauses

/-- The stretches around a position. -/
def around (body : Body) (position : Nat) : Set (Set Nat) :=
  {stretch | ∃ clause ∈ body.clauses, stretch ∈ body.stretches clause ∧ position ∈ stretch}

variable {body : Body} {clause left right : Clause} {clauses : List Clause}
variable {region : Region} {regions : List Region}

theorem LaminarClauses.symm (laminar : body.LaminarClauses left right) :
    body.LaminarClauses right left :=
  fun inner innerMember outer outerMember =>
    (laminar outer outerMember inner innerMember).symm

/-! ## The regions of a coherent body -/

theorem position?_eq_some_iff_idxOf {id : InstrId} {position : Nat} :
    body.position? id = some position ↔ id ∈ body.order ∧ body.order.idxOf id = position := by
  rw [position?, List.idxOf_eq_getD_idxOf?, ← List.isSome_idxOf?]
  cases body.order.idxOf? id <;> simp

/-- The region of a clause whose boundaries are placed. -/
def regionOf (body : Body) (clause : Clause) : Region where
  clause := clause
  guarded := ⟨body.order.idxOf clause.tryStart, body.order.idxOf clause.tryEnd⟩
  handler := ⟨body.order.idxOf clause.handlerStart, body.order.idxOf clause.handlerEnd⟩

theorem stretches_eq_map (body : Body) (clause : Clause) :
    body.stretches clause = (body.regionOf clause).ranges.map Range.positions := rfl

theorem isPlacedIn_iff : region.IsPlacedIn body ↔
    (∀ id ∈ region.clause.boundaries, id ∈ body.order) ∧ region = body.regionOf region.clause := by
  simp only [Clause.boundaries, List.forall_mem_cons, List.not_mem_nil, false_imp_iff,
    implies_true, and_true]
  constructor
  · intro placed
    obtain ⟨inTryStart, tryStart⟩ := position?_eq_some_iff_idxOf.mp placed.tryStart
    obtain ⟨inTryEnd, tryEnd⟩ := position?_eq_some_iff_idxOf.mp placed.tryEnd
    obtain ⟨inHandlerStart, handlerStart⟩ := position?_eq_some_iff_idxOf.mp placed.handlerStart
    obtain ⟨inHandlerEnd, handlerEnd⟩ := position?_eq_some_iff_idxOf.mp placed.handlerEnd
    refine ⟨⟨inTryStart, inTryEnd, inHandlerStart, inHandlerEnd⟩, ?_⟩
    rw [regionOf, tryStart, tryEnd, handlerStart, handlerEnd]
  · rintro ⟨⟨tryStart, tryEnd, handlerStart, handlerEnd⟩, same⟩
    rw [same]
    exact ⟨position?_eq_some_iff_idxOf.mpr ⟨tryStart, rfl⟩,
      position?_eq_some_iff_idxOf.mpr ⟨tryEnd, rfl⟩,
      position?_eq_some_iff_idxOf.mpr ⟨handlerStart, rfl⟩,
      position?_eq_some_iff_idxOf.mpr ⟨handlerEnd, rfl⟩⟩

theorem hasRegions_iff : body.HasRegions regions ↔
    (∀ clause ∈ body.clauses, ∀ id ∈ clause.boundaries, id ∈ body.order) ∧
      regions = body.clauses.map body.regionOf := by
  constructor
  · intro has
    have placed := fun region member => isPlacedIn_iff.mp (has.placed region member)
    rw [← has.clauses, List.map_map]
    refine ⟨List.forall_mem_map.mpr fun region member => (placed region member).1, ?_⟩
    exact (List.map_id regions).symm.trans
      (List.map_congr_left fun region member => (placed region member).2)
  · rintro ⟨boundaries, rfl⟩
    refine ⟨by rw [List.map_map]; exact List.map_id _, List.forall_mem_map.mpr ?_⟩
    exact fun clause member => isPlacedIn_iff.mpr ⟨boundaries clause member, rfl⟩

theorem isSound_regionOf_iff : (body.regionOf clause).IsSound ↔
    body.order.idxOf clause.tryStart < body.order.idxOf clause.tryEnd ∧
      body.order.idxOf clause.handlerStart < body.order.idxOf clause.handlerEnd ∧
        Disjoint (body.guarded clause) (body.handled clause) := by
  constructor
  · intro sound
    exact ⟨sound.guarded, sound.handler,
      (Range.isDisjoint_iff_disjoint sound.guarded sound.handler).mp sound.apart⟩
  · rintro ⟨guarded, handler, apart⟩
    exact ⟨guarded, handler, (Range.isDisjoint_iff_disjoint guarded handler).mpr apart⟩

theorem nests_regionOf_iff (leftSound : (body.regionOf left).IsSound)
    (rightSound : (body.regionOf right).IsSound) :
    (body.regionOf left).Nests (body.regionOf right) ↔ body.LaminarClauses left right := by
  rw [LaminarClauses, stretches_eq_map, stretches_eq_map, List.forall_mem_map]
  refine forall₂_congr fun inner innerMember => ?_
  rw [List.forall_mem_map]
  refine forall₂_congr fun outer outerMember => ?_
  exact Range.nests_iff_laminar (leftSound.upright inner innerMember)
    (rightSound.upright outer outerMember)

theorem mem_instructions_iff {id : InstrId} {instruction : Instruction} :
    (id, instruction) ∈ body.instructions ↔ id ∈ body.order ∧ body.get? id = some instruction := by
  simp only [instructions, List.mem_filterMap, Option.map_eq_some_iff, Prod.mk.injEq]
  constructor
  · rintro ⟨_, placed, _, stored, rfl, rfl⟩
    exact ⟨placed, stored⟩
  · rintro ⟨placed, stored⟩
    exact ⟨id, placed, instruction, stored, rfl, rfl⟩

theorem forall_targets_iff :
    (∀ placed ∈ body.instructions, ∀ target, placed.2.target? = some target →
      target ∈ body.order) ↔ ∀ id ∈ body.order, ∀ instruction, body.get? id = some instruction →
        ∀ target, instruction.operand = .target target → target ∈ body.order := by
  have names : ∀ (instruction : Instruction) (target : InstrId),
      instruction.target? = some target ↔ instruction.operand = .target target := by
    rintro ⟨op, operand⟩ target
    cases operand <;> simp [Instruction.target?]
  simp only [Prod.forall, mem_instructions_iff, names, and_imp]
  exact forall_congr' fun id => ⟨fun targets placed instruction => targets instruction placed,
    fun targets instruction placed => targets placed instruction⟩

theorem exists_wellFormed_iff_coherent : (∃ regions, body.WellFormed regions) ↔ body.Coherent := by
  constructor
  · rintro ⟨regions, wellFormed⟩
    obtain ⟨boundaries, rfl⟩ := hasRegions_iff.mp wellFormed.hasRegions
    have sound := List.forall_mem_map.mp wellFormed.sound
    have parts := fun clause member => isSound_regionOf_iff.mp (sound clause member)
    refine ⟨wellFormed.created, List.nodup_iff_count_eq_one.mp wellFormed.nodup, ?_, boundaries,
      fun clause member => (parts clause member).1, fun clause member => (parts clause member).2.1,
      fun clause member => (parts clause member).2.2, ?_⟩
    · exact forall_targets_iff.mp wellFormed.targets
    · refine (List.pairwise_map.mp wellFormed.nested).imp_of_mem ?_
      intro left right leftMember rightMember
      exact (nests_regionOf_iff (sound left leftMember) (sound right rightMember)).mp
  · intro coherent
    have sound : ∀ clause ∈ body.clauses, (body.regionOf clause).IsSound := fun clause member =>
      isSound_regionOf_iff.mpr ⟨coherent.guardedUpright clause member,
        coherent.handledUpright clause member, coherent.apart clause member⟩
    refine ⟨body.clauses.map body.regionOf, coherent.created,
      List.nodup_iff_count_eq_one.mpr coherent.once, ?_,
      hasRegions_iff.mpr ⟨coherent.boundaries, rfl⟩, List.forall_mem_map.mpr sound, ?_⟩
    · exact forall_targets_iff.mpr coherent.targets
    · refine List.pairwise_map.mpr (coherent.laminar.imp_of_mem ?_)
      intro left right leftMember rightMember
      exact (nests_regionOf_iff (sound left leftMember) (sound right rightMember)).mpr

/-! ## The order of the table -/

/-- Coherence speaks of every clause and every two clauses, never of their places in the table. -/
theorem Coherent.perm (coherent : body.Coherent) (perm : clauses.Perm body.clauses) :
    Coherent { body with clauses } where
  created := coherent.created
  once := coherent.once
  targets := coherent.targets
  boundaries clause member := coherent.boundaries clause (perm.mem_iff.mp member)
  guardedUpright clause member := coherent.guardedUpright clause (perm.mem_iff.mp member)
  handledUpright clause member := coherent.handledUpright clause (perm.mem_iff.mp member)
  apart clause member := coherent.apart clause (perm.mem_iff.mp member)
  laminar := (perm.pairwise_iff LaminarClauses.symm).mpr coherent.laminar

theorem Coherent.laminarClauses (coherent : body.Coherent) (leftMember : left ∈ body.clauses)
    (rightMember : right ∈ body.clauses) : body.LaminarClauses left right := by
  have : Std.Symm body.LaminarClauses := ⟨fun _ _ => LaminarClauses.symm⟩
  refine coherent.laminar.forall_of_forall (fun clause member => ?_) leftMember rightMember
  have apart := coherent.apart clause member
  simp only [LaminarClauses, stretches, List.forall_mem_cons, List.not_mem_nil, false_imp_iff,
    implies_true, and_true]
  exact ⟨⟨.inr (.inl subset_rfl), .inl apart⟩, .inl apart.symm, .inr (.inl subset_rfl)⟩

theorem Coherent.isChain_around (coherent : body.Coherent) (position : Nat) :
    IsChain (· ⊆ ·) (body.around position) := by
  rintro inner ⟨left, leftMember, innerMember, inInner⟩ outer
    ⟨right, rightMember, outerMember, inOuter⟩ _
  have laminar := coherent.laminarClauses leftMember rightMember inner innerMember outer outerMember
  exact laminar.subset_or_subset inInner inOuter

/-- The check accepts exactly the coherent bodies, whatever the order of the table, and what stands
around a position of an accepted body stands in a chain. -/
theorem check_eq_ok_iff_coherent (body : Body) :
    (body.check = .ok () ↔ body.Coherent) ∧
      (∀ clauses : List Clause, clauses.Perm body.clauses →
        (check { body with clauses } = .ok () ↔ body.check = .ok ())) ∧
      (body.check = .ok () → ∀ position, IsChain (· ⊆ ·) (body.around position)) := by
  have accepts : ∀ body : Body, body.check = .ok () ↔ body.Coherent := fun body =>
    check_eq_ok_iff.trans exists_wellFormed_iff_coherent
  refine ⟨accepts body, fun clauses perm => ?_, fun checked => ?_⟩
  · rw [accepts, accepts]
    exact ⟨fun coherent => coherent.perm perm.symm, fun coherent => coherent.perm perm⟩
  · exact ((accepts body).mp checked).isChain_around

end Body

end Splice
