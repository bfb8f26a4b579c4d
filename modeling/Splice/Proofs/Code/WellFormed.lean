import Splice.Code.Check
import Splice.Emulation.Run
import Splice.Proofs.Code.Placement
import Splice.Proofs.Success

/-!
# Well-formed bodies

The check of a body accepts exactly the bodies that are well-formed: the order and the targets are
sound, every clause has its two ranges, and the ranges of different clauses nest.
-/

namespace Splice

namespace Region

/-- The ranges stand where the body places the boundaries of the clause. -/
structure IsPlacedIn (region : Region) (body : Body) : Prop where
  tryStart : body.position? region.clause.tryStart = some region.guarded.start
  tryEnd : body.position? region.clause.tryEnd = some region.guarded.stop
  handlerStart : body.position? region.clause.handlerStart = some region.handler.start
  handlerEnd : body.position? region.clause.handlerEnd = some region.handler.stop

/-- Neither range is inverted, and they do not meet. -/
structure IsSound (region : Region) : Prop where
  guarded : region.guarded.start < region.guarded.stop
  handler : region.handler.start < region.handler.stop
  apart : region.guarded.isDisjoint region.handler

def ranges (region : Region) : List Range := [region.guarded, region.handler]

/-- Each range of one region nests with each of the other. -/
def Nests (left right : Region) : Prop :=
  ∀ inner ∈ left.ranges, ∀ outer ∈ right.ranges, inner.nests outer

end Region

namespace Body

/-- The regions of the body's clauses, in the order of the table. -/
structure HasRegions (body : Body) (regions : List Region) : Prop where
  clauses : regions.map (·.clause) = body.clauses
  placed : ∀ region ∈ regions, region.IsPlacedIn body

structure WellFormed (body : Body) (regions : List Region) : Prop where
  created : ∀ id ∈ body.order, id.index < body.arena.size
  nodup : body.order.Nodup
  targets : ∀ placed ∈ body.instructions, ∀ target, placed.2.target? = some target →
    target ∈ body.order
  hasRegions : body.HasRegions regions
  sound : ∀ region ∈ regions, region.IsSound
  nested : regions.Pairwise Region.Nests

variable {body : Body} {clause : Clause} {region : Region} {regions : List Region}

theorem WellFormed.places (wellFormed : body.WellFormed regions) :
    body.Places body.instructions :=
  places_instructions wellFormed.created wellFormed.nodup

/-! ## Regions -/

theorem locate_eq_ok_iff {id : InstrId} {position : Nat} :
    body.locate id = .ok position ↔ body.position? id = some position := by
  simp only [locate]
  cases body.position? id <;> simp

theorem region_eq_ok_iff :
    Routine.region body clause = .ok region ↔ region.clause = clause ∧ region.IsPlacedIn body := by
  simp only [Routine.region, bind_eq_ok_iff, pure_eq_ok_iff, locate_eq_ok_iff]
  constructor
  · rintro ⟨_, tryStart, _, tryEnd, _, handlerStart, _, handlerEnd, rfl⟩
    exact ⟨rfl, tryStart, tryEnd, handlerStart, handlerEnd⟩
  · rintro ⟨rfl, placed⟩
    exact ⟨_, placed.tryStart, _, placed.tryEnd, _, placed.handlerStart, _, placed.handlerEnd, rfl⟩

private theorem forall₂_clause_iff {clauses : List Clause} {holds : Region → Prop} :
    List.Forall₂ (fun clause region => region.clause = clause ∧ holds region) clauses regions ↔
      regions.map (·.clause) = clauses ∧ ∀ region ∈ regions, holds region := by
  induction regions generalizing clauses with
  | nil => simp [eq_comm]
  | cons region rest ih =>
      rw [List.forall₂_cons_right_iff, List.map_cons, List.forall_mem_cons]
      constructor
      · rintro ⟨clause, clauses, ⟨rfl, here⟩, others, rfl⟩
        obtain ⟨rfl, there⟩ := ih.mp others
        exact ⟨rfl, here, there⟩
      · rintro ⟨rfl, here, there⟩
        exact ⟨_, _, ⟨rfl, here⟩, ih.mpr ⟨rfl, there⟩, rfl⟩

/-- A run resolves the clauses of a body to its regions. -/
theorem mapM_region_eq_ok_iff :
    body.clauses.mapM (Routine.region body) = .ok regions ↔ body.HasRegions regions := by
  simp only [mapM_eq_ok_iff, region_eq_ok_iff, forall₂_clause_iff]
  exact ⟨fun ⟨clauses, placed⟩ => ⟨clauses, placed⟩, fun has => ⟨has.clauses, has.placed⟩⟩

theorem HasRegions.unique {others : List Region} (has : body.HasRegions regions)
    (hasOthers : body.HasRegions others) : regions = others :=
  Except.ok.inj ((mapM_region_eq_ok_iff.mpr has).symm.trans (mapM_region_eq_ok_iff.mpr hasOthers))

/-! ## The parts of the check -/

private theorem nodup_iff_notMem_take {ids : List InstrId} :
    ids.Nodup ↔ ∀ id position, ids[position]? = some id → id ∉ ids.take position := by
  rw [List.nodup_iff_getElem?_ne_getElem?]
  constructor
  · intro distinct id position found earlier
    obtain ⟨first, before, same⟩ := List.mem_take_iff_getElem.mp earlier
    have inside := (List.getElem?_eq_some_iff.mp found).1
    apply distinct first position (by omega) inside
    rw [found, ← same, List.getElem?_eq_getElem]
  · intro distinct first second before inside same
    have found : ids[second]? = some ids[second] := List.getElem?_eq_getElem inside
    apply distinct _ second found
    rw [List.mem_take_iff_getElem]
    refine ⟨first, by omega, ?_⟩
    rw [found, List.getElem?_eq_getElem (by omega), Option.some.injEq] at same
    exact same

theorem checkOrder_eq_ok_iff :
    body.checkOrder = .ok () ↔
      (∀ id ∈ body.order, id.index < body.arena.size) ∧ body.order.Nodup := by
  have each : ∀ id position,
      ((if body.arena.size ≤ id.index then Except.error (.missingInOrder id)
        else if id ∈ body.order.take position then .error (.placedTwice id)
        else .ok () : Except Flaw Unit) = .ok ()) ↔
        id.index < body.arena.size ∧ id ∉ body.order.take position := by
    intro id position
    split_ifs with missing twice
    · simp [Nat.not_lt.mpr missing]
    · simp [twice]
    · simp [twice, Nat.not_le.mp missing]
  rw [checkOrder, forM_eq_ok_iff, nodup_iff_notMem_take]
  simp only [Prod.forall, each, List.mem_zipIdx_iff_getElem?]
  constructor
  · intro sound
    refine ⟨fun id placed => ?_, fun id position found => (sound id position found).2⟩
    obtain ⟨position, found⟩ := List.mem_iff_getElem?.mp placed
    exact (sound id position found).1
  · rintro ⟨created, once⟩ id position found
    exact ⟨created id (List.mem_of_getElem? found), once id position found⟩

theorem checkTargets_eq_ok_iff :
    body.checkTargets = .ok () ↔ ∀ placed ∈ body.instructions, ∀ target,
      placed.2.target? = some target → target ∈ body.order := by
  rw [checkTargets, forM_eq_ok_iff]
  refine forall₂_congr fun placed _ => ?_
  obtain ⟨id, instruction⟩ := placed
  cases targets : instruction.target? with
  | none => simp [targets]
  | some target =>
      by_cases inOrder : target ∈ body.order <;> simp [targets, inOrder]

theorem clauseRanges_eq_ok_iff {index : Nat} {guarded handler : Range} :
    body.clauseRanges index clause = .ok (guarded, handler) ↔
      Region.IsPlacedIn ⟨clause, guarded, handler⟩ body ∧
        Region.IsSound ⟨clause, guarded, handler⟩ := by
  have located : ∀ id position, body.boundary index id = .ok position ↔
      body.position? id = some position := by
    intro id position
    simp only [boundary]
    cases body.position? id <;> simp
  simp only [clauseRanges, bind_eq_ok_iff, located]
  constructor
  · rintro ⟨_, tryStart, _, tryEnd, _, handlerStart, _, handlerEnd, checked⟩
    split_ifs at checked with inverted covers
    simp only [Except.ok.injEq, Prod.mk.injEq] at checked
    obtain ⟨rfl, rfl⟩ := checked
    simp only [Bool.or_eq_true, decide_eq_true_eq, not_or, Nat.not_le] at inverted
    exact ⟨⟨tryStart, tryEnd, handlerStart, handlerEnd⟩,
      ⟨inverted.1, inverted.2, by simpa using covers⟩⟩
  · rintro ⟨placed, sound⟩
    refine ⟨_, placed.tryStart, _, placed.tryEnd, _, placed.handlerStart, _, placed.handlerEnd, ?_⟩
    have notInverted := not_or.mpr
      ⟨Nat.not_le.mpr sound.guarded, Nat.not_le.mpr sound.handler⟩
    rw [if_neg (by simpa using notInverted), if_neg (by simpa using sound.apart)]

/-- The ranges of each region, with the index of the region. -/
def ownedFrom (start : Nat) : List Region → List (List OwnedRange)
  | [] => []
  | region :: rest =>
      [(start, region.guarded), (start, region.handler)] :: ownedFrom (start + 1) rest

private theorem mapM_clauseRanges_iff {clauses : List Clause} {start : Nat}
    {owned : List (List OwnedRange)} :
    ((clauses.zipIdx start).mapM fun (clause, index) => do
        let (guarded, handler) ← body.clauseRanges index clause
        return [(index, guarded), (index, handler)]) = .ok owned ↔
      ∃ regions : List Region, regions.map (·.clause) = clauses ∧
        (∀ region ∈ regions, region.IsPlacedIn body ∧ region.IsSound) ∧
          owned = ownedFrom start regions := by
  induction clauses generalizing start owned with
  | nil =>
      simp only [List.zipIdx_nil, List.mapM_nil, pure_eq_ok_iff, List.map_eq_nil_iff]
      constructor
      · rintro rfl
        exact ⟨[], rfl, by simp, rfl⟩
      · rintro ⟨_, rfl, _, rfl⟩
        rfl
  | cons clause rest ih =>
      simp only [List.zipIdx_cons, List.mapM_cons, bind_eq_ok_iff, pure_eq_ok_iff, ih]
      constructor
      · rintro ⟨_, ⟨⟨guarded, handler⟩, ranges, rfl⟩, _, ⟨regions, rfl, each, rfl⟩, rfl⟩
        refine ⟨⟨clause, guarded, handler⟩ :: regions, rfl, ?_, rfl⟩
        exact List.forall_mem_cons.mpr ⟨clauseRanges_eq_ok_iff.mp ranges, each⟩
      · rintro ⟨regions, clauses, each, rfl⟩
        obtain ⟨region, regions, rfl, rfl, rfl⟩ := List.map_eq_cons_iff.mp clauses
        rw [List.forall_mem_cons] at each
        exact ⟨_, ⟨(region.guarded, region.handler), clauseRanges_eq_ok_iff.mpr each.1, rfl⟩,
          _, ⟨regions, rfl, each.2, rfl⟩, rfl⟩

theorem ownedRanges_eq_ok_iff {owned : List OwnedRange} :
    body.ownedRanges = .ok owned ↔ ∃ regions, body.HasRegions regions ∧
      (∀ region ∈ regions, region.IsSound) ∧ owned = (ownedFrom 0 regions).flatten := by
  simp only [ownedRanges, bind_eq_ok_iff, pure_eq_ok_iff]
  constructor
  · rintro ⟨_, ranges, rfl⟩
    obtain ⟨regions, clauses, each, rfl⟩ := mapM_clauseRanges_iff.mp ranges
    exact ⟨regions, ⟨clauses, fun region member => (each region member).1⟩,
      fun region member => (each region member).2, rfl⟩
  · rintro ⟨regions, has, sound, rfl⟩
    exact ⟨_, mapM_clauseRanges_iff.mpr ⟨regions, has.clauses,
      fun region member => ⟨has.placed region member, sound region member⟩, rfl⟩, rfl⟩

/-! ## Nesting -/

theorem checkNesting_eq_ok_iff {owned : List OwnedRange} :
    checkNesting owned = .ok () ↔
      owned.Pairwise fun left right => left.1 = right.1 ∨ left.2.nests right.2 := by
  induction owned with
  | nil => simp [checkNesting]
  | cons first rest ih =>
      obtain ⟨owner, range⟩ := first
      rw [checkNesting, check_bind_eq_ok_iff, forM_eq_ok_iff, ih, List.pairwise_cons]
      refine and_congr_left fun _ => forall₂_congr fun ⟨other, otherRange⟩ _ => ?_
      dsimp only
      split_ifs with sound
      · simpa using sound
      · simpa using sound

private theorem mem_ownedFrom_iff {owned : List OwnedRange} {start : Nat} :
    owned ∈ ownedFrom start regions ↔ ∃ position, ∃ region : Region,
      regions[position]? = some region ∧ owned = region.ranges.map (start + position, ·) := by
  induction regions generalizing start with
  | nil => simp [ownedFrom]
  | cons region rest ih =>
      rw [ownedFrom, List.mem_cons, ih]
      constructor
      · rintro (rfl | ⟨position, other, found, rfl⟩)
        · exact ⟨0, region, rfl, rfl⟩
        · exact ⟨position + 1, other, found, by rw [Nat.add_right_comm, Nat.add_assoc]⟩
      · rintro ⟨position, other, found, rfl⟩
        cases position with
        | zero =>
            cases found
            exact .inl rfl
        | succ position =>
            exact .inr ⟨position, other, found, by rw [Nat.add_right_comm, Nat.add_assoc]⟩

theorem pairwise_ownedFrom_iff {start : Nat} :
    ((ownedFrom start regions).flatten.Pairwise fun left right =>
      left.1 = right.1 ∨ left.2.nests right.2) ↔ regions.Pairwise Region.Nests := by
  induction regions generalizing start with
  | nil => simp [ownedFrom]
  | cons region rest ih =>
      have own : [(start, region.guarded), (start, region.handler)].Pairwise
          fun left right : OwnedRange => left.1 = right.1 ∨ left.2.nests right.2 := by simp
      have across : (∀ left ∈ region.ranges.map (start, ·),
          ∀ right ∈ (ownedFrom (start + 1) rest).flatten,
            left.1 = right.1 ∨ left.2.nests right.2) ↔ ∀ other ∈ rest, region.Nests other := by
        constructor
        · intro apart other member inner innerMember outer outerMember
          obtain ⟨position, found⟩ := List.mem_iff_getElem?.mp member
          have right : (start + 1 + position, outer) ∈ (ownedFrom (start + 1) rest).flatten :=
            List.mem_flatten.mpr ⟨_, mem_ownedFrom_iff.mpr ⟨position, other, found, rfl⟩,
              List.mem_map_of_mem outerMember⟩
          rcases apart _ (List.mem_map_of_mem innerMember) _ right with same | nests
          · exact absurd same (by simp only; omega)
          · exact nests
        · intro apart left leftMember right rightMember
          obtain ⟨inner, innerMember, rfl⟩ := List.mem_map.mp leftMember
          obtain ⟨_, owned, rightMember⟩ := List.mem_flatten.mp rightMember
          obtain ⟨position, other, found, rfl⟩ := mem_ownedFrom_iff.mp owned
          obtain ⟨outer, outerMember, rfl⟩ := List.mem_map.mp rightMember
          exact .inr (apart other (List.mem_of_getElem? found) inner innerMember outer outerMember)
      rw [ownedFrom, List.flatten_cons, List.pairwise_append, ih]
      constructor
      · rintro ⟨_, others, apart⟩
        exact List.pairwise_cons.mpr ⟨across.mp apart, others⟩
      · intro nested
        obtain ⟨apart, others⟩ := List.pairwise_cons.mp nested
        exact ⟨own, others, across.mpr apart⟩

/-- The check accepts a body exactly when it is well-formed. -/
theorem check_eq_ok_iff : body.check = .ok () ↔ ∃ regions, body.WellFormed regions := by
  rw [check, check_bind_eq_ok_iff, check_bind_eq_ok_iff, checkOrder_eq_ok_iff,
    checkTargets_eq_ok_iff, bind_eq_ok_iff]
  simp only [ownedRanges_eq_ok_iff, checkNesting_eq_ok_iff]
  constructor
  · rintro ⟨⟨created, nodup⟩, targets, _, ⟨regions, has, sound, rfl⟩, nested⟩
    exact ⟨regions, created, nodup, targets, has, sound, pairwise_ownedFrom_iff.mp nested⟩
  · rintro ⟨regions, wellFormed⟩
    exact ⟨⟨wellFormed.created, wellFormed.nodup⟩, wellFormed.targets, _,
      ⟨regions, wellFormed.hasRegions, wellFormed.sound, rfl⟩,
      pairwise_ownedFrom_iff.mpr wellFormed.nested⟩

end Body

end Splice
