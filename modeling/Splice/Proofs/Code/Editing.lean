import Splice.Proofs.Code.Placement
import Splice.Proofs.Success

/-!
# Editing

A body is made by any sequence of edits from the empty one. What one edit can do is said once, by
`Body.Takes`. From it follows what every edit keeps: ids stay what they name, the order only ever
grows, and a refused edit has no effect. By induction, whole sequences keep it as well.
-/

namespace Splice

/-- One edit, with whatever arguments. -/
inductive Edit where
  | create (instruction : Instruction)
  | push (id : InstrId)
  | append (instruction : Instruction)
  | insertBefore (anchor : InstrId) (instruction : Instruction)
  | insertAfter (anchor : InstrId) (instruction : Instruction)
  | replace (id : InstrId) (instruction : Instruction)
  | addSlot (type : TypeExpr)

/-- What an edit that succeeds hands out. -/
inductive Edit.Answer where
  | done
  | created (id : InstrId)
  | slot (index : Nat)

namespace Edit

/-- The instruction that the edit creates. -/
def instruction? : Edit → Option Instruction
  | create instruction | append instruction => some instruction
  | insertBefore _ instruction | insertAfter _ instruction => some instruction
  | push _ | replace _ _ | addSlot _ => none

/-- How an edit that succeeds changes an order, given what it hands out. -/
inductive Arranges : Edit → Answer → List InstrId → List InstrId → Prop where
  | create (instruction : Instruction) (id : InstrId) (order : List InstrId) :
      Arranges (.create instruction) (.created id) order order
  | push (id : InstrId) (order : List InstrId) : Arranges (.push id) .done order (order ++ [id])
  | append (instruction : Instruction) (id : InstrId) (order : List InstrId) :
      Arranges (.append instruction) (.created id) order (order ++ [id])
  | insertBefore (anchor : InstrId) (instruction : Instruction) (id : InstrId)
      (front back : List InstrId) : Arranges (.insertBefore anchor instruction) (.created id)
        (front ++ anchor :: back) (front ++ id :: anchor :: back)
  | insertAfter (anchor : InstrId) (instruction : Instruction) (id : InstrId)
      (front back : List InstrId) : Arranges (.insertAfter anchor instruction) (.created id)
        (front ++ anchor :: back) (front ++ anchor :: id :: back)
  | replace (id : InstrId) (instruction : Instruction) (order : List InstrId) :
      Arranges (.replace id instruction) .done order order
  | addSlot (type : TypeExpr) (index : Nat) (order : List InstrId) :
      Arranges (.addSlot type) (.slot index) order order

theorem Arranges.sublist {edit : Edit} {answer : Answer} {first second : List InstrId}
    (arranges : edit.Arranges answer first second) : first.Sublist second := by
  cases arranges with
  | create | replace | addSlot => exact .refl _
  | push | append => exact List.sublist_append_left _ _
  | insertBefore => exact (List.Sublist.cons _ (.refl _)).append_left _
  | insertAfter => exact ((List.Sublist.cons _ (.refl _)).cons_cons _).append_left _

def Answer.id? : Answer → Option InstrId
  | created id => some id
  | done | slot _ => none

def Answer.slot? : Answer → Option Nat
  | slot index => some index
  | done | created _ => none

/-- Edits beside their answers, the first one first. -/
abbrev Log := List (Edit × Except Flaw Answer)

/-- The ids that were handed out, in turn. -/
def Log.ids (log : Log) : List InstrId :=
  log.filterMap fun entry => entry.2.toOption.bind Answer.id?

/-- The slot indices that were handed out, in turn. -/
def Log.slots (log : Log) : List Nat :=
  log.filterMap fun entry => entry.2.toOption.bind Answer.slot?

end Edit

namespace Body

def edit (body : Body) : Edit → Except Flaw (Edit.Answer × Body)
  | .create instruction =>
    let (id, after) := body.create instruction
    return (.created id, after)
  | .push id => do return (.done, ← body.push id)
  | .append instruction =>
    let (id, after) := body.append instruction
    return (.created id, after)
  | .insertBefore anchor instruction => do
    let (id, after) ← body.insertBefore anchor instruction
    return (.created id, after)
  | .insertAfter anchor instruction => do
    let (id, after) ← body.insertAfter anchor instruction
    return (.created id, after)
  | .replace id instruction => do return (.done, ← body.replace id instruction)
  | .addSlot type => do
    let (index, after) ← body.addSlot type
    return (.slot index, after)

/-- The answer to an edit and the body to go on with. -/
def perform (body : Body) (edit : Edit) : Except Flaw Edit.Answer × Body :=
  match body.edit edit with
  | .ok (answer, after) => (.ok answer, after)
  | .error flaw => (.error flaw, body)

def performAll (body : Body) : List Edit → Edit.Log × Body
  | [] => ([], body)
  | edit :: rest =>
    let later := (body.perform edit).2.performAll rest
    ((edit, (body.perform edit).1) :: later.1, later.2)

/-! ## What an edit can do -/

/-- Why an edit of a body is refused. -/
inductive Refuses (body : Body) : Edit → Flaw → Prop where
  | missing {id : InstrId} (unknown : body.arena.size ≤ id.index) :
      Refuses body (.push id) (.missing id)
  | alreadyPlaced {id : InstrId} (placed : id ∈ body.order) :
      Refuses body (.push id) (.alreadyPlaced id)
  | insertBefore {anchor : InstrId} (unplaced : anchor ∉ body.order) (instruction : Instruction) :
      Refuses body (.insertBefore anchor instruction) (.anchorNotPlaced anchor)
  | insertAfter {anchor : InstrId} (unplaced : anchor ∉ body.order) (instruction : Instruction) :
      Refuses body (.insertAfter anchor instruction) (.anchorNotPlaced anchor)
  | replace {id : InstrId} (unknown : body.arena.size ≤ id.index) (instruction : Instruction) :
      Refuses body (.replace id instruction) (.missing id)
  | addSlot (full : body.slots.size = 65536) (type : TypeExpr) :
      Refuses body (.addSlot type) .tooManySlots

/-- The invariant of every sequence of edits. -/
structure Arranged (body : Body) : Prop where
  created : ∀ id ∈ body.order, id.index < body.arena.size
  nodup : body.order.Nodup
  slots : body.slots.size ≤ 65536

/-- Every way in which an edit of an arranged body can go. -/
inductive Takes (before : Body) : Edit → Except Flaw Edit.Answer → Body → Prop where
  | refused {edit : Edit} {flaw : Flaw} (refuses : before.Refuses edit flaw) :
      Takes before edit (.error flaw) before
  | create (instruction : Instruction) :
      Takes before (.create instruction) (.ok (.created ⟨before.arena.size⟩))
        { before with arena := before.arena.push instruction }
  | push {id : InstrId} (created : id.index < before.arena.size) (unplaced : id ∉ before.order) :
      Takes before (.push id) (.ok .done) { before with order := before.order ++ [id] }
  | append (instruction : Instruction) :
      Takes before (.append instruction) (.ok (.created ⟨before.arena.size⟩))
        { before with
          arena := before.arena.push instruction
          order := before.order ++ [⟨before.arena.size⟩] }
  | insertBefore {anchor : InstrId} {front back : List InstrId}
      (order : before.order = front ++ anchor :: back) (instruction : Instruction) :
      Takes before (.insertBefore anchor instruction) (.ok (.created ⟨before.arena.size⟩))
        { before with
          arena := before.arena.push instruction
          order := front ++ ⟨before.arena.size⟩ :: anchor :: back }
  | insertAfter {anchor : InstrId} {front back : List InstrId}
      (order : before.order = front ++ anchor :: back) (instruction : Instruction) :
      Takes before (.insertAfter anchor instruction) (.ok (.created ⟨before.arena.size⟩))
        { before with
          arena := before.arena.push instruction
          order := front ++ anchor :: ⟨before.arena.size⟩ :: back }
  | replace {id : InstrId} (created : id.index < before.arena.size) (instruction : Instruction) :
      Takes before (.replace id instruction) (.ok .done)
        { before with arena := before.arena.setIfInBounds id.index instruction }
  | addSlot (room : before.slots.size < 65536) (type : TypeExpr) :
      Takes before (.addSlot type) (.ok (.slot before.slots.size))
        { before with slots := before.slots.push type }

variable {before body after : Body} {edit : Edit} {answer : Except Flaw Edit.Answer}
variable {flaw other : Flaw} {id anchor : InstrId} {log : Edit.Log}

theorem Arranged.create (arranged : body.Arranged) (instruction : Instruction) :
    Arranged { body with arena := body.arena.push instruction } where
  created id placed := by
    rw [Array.size_push]
    exact Nat.lt_succ_of_lt (arranged.created id placed)
  nodup := arranged.nodup
  slots := arranged.slots

/-- One more id may be placed anywhere, if it names an instruction and is not placed. -/
theorem Arranged.place (arranged : body.Arranged) (created : id.index < body.arena.size)
    (unplaced : id ∉ body.order) {order : List InstrId} (perm : order.Perm (id :: body.order)) :
    Arranged { body with order } where
  created other placed := by
    rcases List.mem_cons.mp (perm.mem_iff.mp placed) with rfl | placed
    · exact created
    · exact arranged.created other placed
  nodup := perm.nodup_iff.mpr (List.nodup_cons.mpr ⟨unplaced, arranged.nodup⟩)
  slots := arranged.slots

theorem Arranged.fresh_notMem (arranged : body.Arranged) : ⟨body.arena.size⟩ ∉ body.order :=
  fun placed => Nat.lt_irrefl _ (arranged.created _ placed)

theorem Arranged.insert (arranged : body.Arranged) (instruction : Instruction)
    {order : List InstrId} (perm : order.Perm (⟨body.arena.size⟩ :: body.order)) :
    Arranged { body with arena := body.arena.push instruction, order } :=
  (arranged.create instruction).place (by simp) arranged.fresh_notMem perm

theorem Takes.arranged (takes : before.Takes edit answer after) (arranged : before.Arranged) :
    after.Arranged := by
  cases takes with
  | refused => exact arranged
  | create instruction => exact arranged.create instruction
  | push created unplaced => exact arranged.place created unplaced (List.perm_append_singleton ..)
  | append instruction => exact arranged.insert instruction (List.perm_append_singleton ..)
  | insertBefore order instruction =>
      refine arranged.insert instruction ?_
      rw [order]
      exact List.perm_middle
  | insertAfter order instruction =>
      refine arranged.insert instruction ?_
      rw [order]
      exact ((List.Perm.swap _ _ _).append_left _).trans List.perm_middle
  | replace created instruction =>
      refine ⟨fun id placed => ?_, arranged.nodup, arranged.slots⟩
      rw [Array.size_setIfInBounds]
      exact arranged.created id placed
  | addSlot room type =>
      refine ⟨arranged.created, arranged.nodup, ?_⟩
      rw [Array.size_push]
      exact room

theorem Refuses.unique (arranged : body.Arranged) (refuses : body.Refuses edit flaw)
    (also : body.Refuses edit other) : flaw = other := by
  cases refuses with
  | missing unknown =>
      cases also with
      | missing => rfl
      | alreadyPlaced placed => exact absurd (arranged.created _ placed) (Nat.not_lt.mpr unknown)
  | alreadyPlaced placed =>
      cases also with
      | missing unknown => exact absurd (arranged.created _ placed) (Nat.not_lt.mpr unknown)
      | alreadyPlaced => rfl
  | insertBefore | insertAfter | replace | addSlot => cases also; rfl

theorem Takes.arranges {result : Edit.Answer} (takes : before.Takes edit (.ok result) after) :
    edit.Arranges result before.order after.order := by
  cases takes with
  | create instruction => exact .create instruction _ _
  | push => exact .push _ _
  | append instruction => exact .append instruction _ _
  | insertBefore order instruction =>
      rw [order]
      exact .insertBefore _ instruction _ _ _
  | insertAfter order instruction =>
      rw [order]
      exact .insertAfter _ instruction _ _ _
  | replace _ instruction => exact .replace _ instruction _
  | addSlot _ type => exact .addSlot type _ _

/-- A new id is the next one of the arena. -/
theorem Takes.fresh (takes : before.Takes edit (.ok (.created id)) after) :
    id = ⟨before.arena.size⟩ ∧ id.index < after.arena.size ∧ after.get? id = edit.instruction? := by
  cases takes with
  | create | append | insertBefore | insertAfter =>
      exact ⟨rfl, by simp, by simp [get?, Edit.instruction?]⟩

end Body

end Splice
