import Splice.Code.Body
import Mathlib.Data.List.Basic
import Mathlib.Data.List.Nodup

/-!
# Placed code

A body is read as the list of its placed instructions with their ids. Every edit of a body is a
simple operation on that list, so that later arguments never look at the arena and the order apart.
-/

namespace Splice

/-- An instruction under the id by which other instructions and clauses refer to it. -/
abbrev Placed := InstrId × Instruction

namespace Instruction

@[simp] theorem target?_none (op : Op) : (⟨op, .none⟩ : Instruction).target? = none := rfl

@[simp] theorem target?_loadSlot (index : Nat) : (loadSlot index).target? = none := rfl

@[simp] theorem target?_storeSlot (index : Nat) : (storeSlot index).target? = none := rfl

@[simp] theorem target?_loadArgument (index : Nat) : (loadArgument index).target? = none := rfl

@[simp] theorem target?_invoke (op : Op) (member : MemberRef) :
    (invoke op member).target? = none := rfl

@[simp] theorem target?_leaveTo (id : InstrId) : (leaveTo id).target? = some id := rfl

end Instruction

/-- Instructions under consecutive ids. -/
def numbered (start : Nat) : List Instruction → List Placed
  | [] => []
  | instruction :: rest => (⟨start⟩, instruction) :: numbered (start + 1) rest

@[simp] theorem length_numbered (start : Nat) (instructions : List Instruction) :
    (numbered start instructions).length = instructions.length := by
  induction instructions generalizing start with
  | nil => rfl
  | cons instruction rest ih => rw [numbered, List.length_cons, ih, List.length_cons]

theorem getElem?_numbered (start : Nat) (instructions : List Instruction) (position : Nat) :
    (numbered start instructions)[position]? =
      instructions[position]?.map (⟨start + position⟩, ·) := by
  induction instructions generalizing start position with
  | nil => rfl
  | cons instruction rest ih =>
      cases position with
      | zero => rfl
      | succ position =>
          rw [numbered, List.getElem?_cons_succ, ih, List.getElem?_cons_succ, Nat.add_assoc,
            Nat.add_comm 1]

theorem mem_of_mem_numbered {start : Nat} {instructions : List Instruction} {placed : Placed}
    (member : placed ∈ numbered start instructions) : placed.2 ∈ instructions := by
  obtain ⟨position, found⟩ := List.mem_iff_getElem?.mp member
  rw [getElem?_numbered, Option.map_eq_some_iff] at found
  obtain ⟨instruction, found, rfl⟩ := found
  exact List.mem_of_getElem? found

namespace Body

/-- The body places exactly this code: its ids in order, no id twice, each with its instruction. -/
structure Places (body : Body) (code : List Placed) : Prop where
  order : body.order = code.map (·.1)
  stored : ∀ placed ∈ code, body.get? placed.1 = some placed.2
  nodup : body.order.Nodup

variable {body : Body} {code front back : List Placed} {id anchor : InstrId}
variable {instruction : Instruction} {position : Nat}

theorem mem_order_iff : id ∈ body.order ↔ ∃ position, body.position? id = some position := by
  rw [position?, ← Option.isSome_iff_exists, List.isSome_idxOf?]

theorem position?_lt_length (located : body.position? id = some position) :
    position < body.length :=
  (List.idxOf?_eq_some_iff.mp located).1

/-- A body whose order names created instructions, each once, places its instructions. -/
theorem places_instructions (created : ∀ id ∈ body.order, id.index < body.arena.size)
    (nodup : body.order.Nodup) : body.Places body.instructions where
  order := by
    have read : ∀ ids : List InstrId, (∀ id ∈ ids, id.index < body.arena.size) →
        (ids.filterMap fun id => (body.get? id).map (id, ·)).map (·.1) = ids := by
      intro ids
      induction ids with
      | nil => intro _; rfl
      | cons id rest ih =>
          intro exist
          rw [List.forall_mem_cons] at exist
          have inside := exist.1
          have stored : body.get? id = some body.arena[id.index] :=
            Array.getElem?_eq_getElem inside
          simp only [List.filterMap_cons, stored, Option.map_some, List.map_cons, ih exist.2]
    exact (read body.order created).symm
  stored := by
    rintro ⟨id, instruction⟩ placed
    simp only [instructions, List.mem_filterMap, Option.map_eq_some_iff, Prod.mk.injEq] at placed
    obtain ⟨_, _, _, stored, rfl, rfl⟩ := placed
    exact stored
  nodup := nodup

namespace Places

theorem getElem?_order (places : body.Places code) (position : Nat) :
    body.order[position]? = code[position]?.map (·.1) := by
  rw [places.order, List.getElem?_map]

theorem get?_of_getElem? (places : body.Places code)
    (found : code[position]? = some (id, instruction)) : body.get? id = some instruction :=
  places.stored (id, instruction) (List.mem_of_getElem? found)

theorem created (places : body.Places code) (placed : id ∈ body.order) :
    id.index < body.arena.size := by
  rw [places.order, List.mem_map] at placed
  obtain ⟨⟨_, instruction⟩, member, rfl⟩ := placed
  have stored := places.stored _ member
  exact (Array.getElem?_eq_some_iff.mp stored).1

theorem fresh_notMem (places : body.Places code) : ⟨body.arena.size⟩ ∉ body.order := by
  intro placed
  exact Nat.lt_irrefl _ (places.created placed)

theorem instructions_eq (places : body.Places code) : body.instructions = code := by
  have read : ∀ listed : List Placed,
      (∀ placed ∈ listed, body.get? placed.1 = some placed.2) →
        (listed.map (·.1)).filterMap (fun id => (body.get? id).map (id, ·)) = listed := by
    intro listed
    induction listed with
    | nil => intro _; rfl
    | cons placed rest ih =>
        intro stored
        rw [List.forall_mem_cons] at stored
        simp only [List.map_cons, List.filterMap_cons, stored.1, Option.map_some, ih stored.2]
  rw [instructions, places.order]
  exact read code places.stored

/-- The position of an id is where the code has it. -/
theorem position?_eq_some_iff (places : body.Places code) :
    body.position? id = some position ↔
      ∃ instruction, code[position]? = some (id, instruction) := by
  have located : body.position? id = some position ↔ body.order[position]? = some id := by
    rw [position?, List.idxOf?_eq_some_iff, List.getElem?_eq_some_iff]
    constructor
    · rintro ⟨inside, here, _⟩
      exact ⟨inside, here⟩
    · rintro ⟨inside, here⟩
      refine ⟨inside, here, fun earlier before same => ?_⟩
      exact Nat.ne_of_lt before (places.nodup.getElem_inj_iff.mp (same.trans here.symm))
  rw [located, places.getElem?_order, Option.map_eq_some_iff]
  constructor
  · rintro ⟨⟨_, instruction⟩, found, rfl⟩
    exact ⟨instruction, found⟩
  · rintro ⟨instruction, found⟩
    exact ⟨(id, instruction), found, rfl⟩

theorem position?_of_getElem? (places : body.Places code)
    (found : code[position]? = some (id, instruction)) : body.position? id = some position :=
  places.position?_eq_some_iff.mpr ⟨instruction, found⟩

end Places

/-! ## Edits -/

/-- The body has more instructions than before, created or placed. All else is as it was, and so are
the instructions that were created and are not placed. -/
structure Extends (after before : Body) : Prop where
  slots : after.slots = before.slots
  clauses : after.clauses = before.clauses
  maxStack : after.maxStack = before.maxStack
  initLocals : after.initLocals = before.initLocals
  size : before.arena.size ≤ after.arena.size
  order : ∀ id ∈ after.order, id ∈ before.order ∨ before.arena.size ≤ id.index
  unplaced : ∀ id, id.index < before.arena.size → id ∉ before.order → after.get? id = before.get? id

namespace Extends

theorem refl (body : Body) : body.Extends body where
  slots := rfl
  clauses := rfl
  maxStack := rfl
  initLocals := rfl
  size := Nat.le_refl _
  order := fun _ placed => .inl placed
  unplaced := fun _ _ _ => rfl

theorem trans {last middle first : Body} (later : last.Extends middle)
    (earlier : middle.Extends first) : last.Extends first where
  slots := later.slots.trans earlier.slots
  clauses := later.clauses.trans earlier.clauses
  maxStack := later.maxStack.trans earlier.maxStack
  initLocals := later.initLocals.trans earlier.initLocals
  size := Nat.le_trans earlier.size later.size
  order := by
    intro id placed
    rcases later.order id placed with placed | new
    · exact earlier.order id placed
    · exact .inr (Nat.le_trans earlier.size new)
  unplaced := by
    intro id created notPlaced
    have stillNot : id ∉ middle.order := by
      intro placed
      rcases earlier.order id placed with placed | new
      · exact notPlaced placed
      · exact Nat.not_lt.mpr new created
    rw [later.unplaced id (Nat.lt_of_lt_of_le created earlier.size) stillNot,
      earlier.unplaced id created notPlaced]

end Extends

theorem get?_create_self (body : Body) (instruction : Instruction) :
    (body.create instruction).2.get? (body.create instruction).1 = some instruction := by
  simp [create, get?]

theorem get?_create_of_lt (instruction : Instruction) (created : id.index < body.arena.size) :
    (body.create instruction).2.get? id = body.get? id := by
  simp only [create, get?]
  exact Array.getElem?_push_lt created |>.trans (Array.getElem?_eq_getElem created).symm

theorem extends_create (body : Body) (instruction : Instruction) :
    (body.create instruction).2.Extends body where
  slots := rfl
  clauses := rfl
  maxStack := rfl
  initLocals := rfl
  size := by simp [create]
  order := fun _ placed => .inl placed
  unplaced := fun _ created _ => get?_create_of_lt instruction created

theorem extends_append (body : Body) (instruction : Instruction) :
    (body.append instruction).2.Extends body where
  slots := rfl
  clauses := rfl
  maxStack := rfl
  initLocals := rfl
  size := by simp [append, create]
  order := by
    intro id placed
    simp only [append, create, List.mem_append, List.mem_singleton] at placed
    rcases placed with placed | rfl
    · exact .inl placed
    · exact .inr (Nat.le_refl _)
  unplaced := fun _ created _ => get?_create_of_lt instruction created

theorem size_appendAll (body : Body) (instructions : List Instruction) :
    (body.appendAll instructions).arena.size = body.arena.size + instructions.length := by
  induction instructions generalizing body with
  | nil => rfl
  | cons instruction rest ih =>
      have size := ih (body.append instruction).2
      simp only [append, create, Array.size_push] at size
      rw [List.length_cons, Nat.add_comm rest.length, ← Nat.add_assoc]
      exact size

theorem extends_insertAt (body : Body) (position : Nat) (instruction : Instruction) :
    (body.insertAt position instruction).2.Extends body where
  slots := rfl
  clauses := rfl
  maxStack := rfl
  initLocals := rfl
  size := by simp [insertAt, create]
  order := by
    intro id placed
    by_cases inside : position ≤ body.order.length
    · rcases (List.mem_insertIdx inside).mp placed with rfl | placed
      · exact .inr (Nat.le_refl _)
      · exact .inl placed
    · simp only [insertAt, create] at placed
      rw [List.insertIdx_of_length_lt (Nat.not_le.mp inside)] at placed
      exact .inl placed
  unplaced := fun _ created _ => get?_create_of_lt instruction created

/-- The instruction is created and not placed yet. -/
def Keeps (body : Body) (id : InstrId) (instruction : Instruction) : Prop :=
  body.get? id = some instruction ∧ id ∉ body.order

/-- Other edits leave an instruction that is not placed yet as it is. -/
theorem Keeps.extends_ {after : Body} (keeps : body.Keeps id instruction)
    (more : after.Extends body) : after.Keeps id instruction := by
  obtain ⟨stored, notPlaced⟩ := keeps
  have created : id.index < body.arena.size := (Array.getElem?_eq_some_iff.mp stored).1
  constructor
  · rw [more.unplaced id created notPlaced, stored]
  · intro placed
    rcases more.order id placed with placed | new
    · exact notPlaced placed
    · exact Nat.not_lt.mpr new created

/-- Placing another instruction leaves it as it is as well. -/
theorem Keeps.push {after : Body} {other : InstrId} (keeps : body.Keeps id instruction)
    (arena : after.arena = body.arena) (order : after.order = body.order ++ [other])
    (different : id ≠ other) : after.Keeps id instruction := by
  constructor
  · rw [get?, arena]
    exact keeps.1
  · rw [order, List.mem_append, List.mem_singleton]
    rintro (placed | same)
    · exact keeps.2 placed
    · exact different same

namespace Places

/-- What a body places depends on its arena and its order alone. -/
theorem congr {after : Body} (places : body.Places code) (arena : after.arena = body.arena)
    (order : after.order = body.order) : after.Places code where
  order := order.trans places.order
  stored := by
    intro placed member
    rw [get?, arena]
    exact places.stored placed member
  nodup := order ▸ places.nodup

theorem create (places : body.Places code) (instruction : Instruction) :
    (body.create instruction).2.Places code where
  order := places.order
  stored := by
    intro placed member
    have inOrder : placed.1 ∈ body.order := by
      rw [places.order]
      exact List.mem_map_of_mem member
    rw [get?_create_of_lt instruction (places.created inOrder)]
    exact places.stored placed member
  nodup := places.nodup

theorem keeps_create (places : body.Places code) (instruction : Instruction) :
    (body.create instruction).2.Keeps ⟨body.arena.size⟩ instruction :=
  ⟨get?_create_self body instruction, places.fresh_notMem⟩

/-- Code whose order has one more id, of a stored instruction, at some place. -/
private theorem insert (after : Body) (places : body.Places (front ++ back))
    (stored : after.get? id = some instruction) (notPlaced : id ∉ body.order)
    (kept : ∀ old ∈ body.order, after.get? old = body.get? old)
    (order : after.order = front.map (·.1) ++ id :: back.map (·.1)) :
    after.Places (front ++ (id, instruction) :: back) where
  order := by simp [order]
  stored := by
    intro placed member
    rw [List.mem_append, List.mem_cons] at member
    have old : placed ∈ front ++ back → after.get? placed.1 = some placed.2 := by
      intro member
      have inOrder : placed.1 ∈ body.order := by
        rw [places.order]
        exact List.mem_map_of_mem member
      rw [kept _ inOrder]
      exact places.stored placed member
    rcases member with member | rfl | member
    · exact old (List.mem_append_left back member)
    · exact stored
    · exact old (List.mem_append_right front member)
  nodup := by
    have nodup := places.nodup
    rw [places.order, List.map_append] at nodup notPlaced
    rw [order]
    exact List.nodup_middle.mpr (List.nodup_cons.mpr ⟨notPlaced, nodup⟩)

/-- Placing a created instruction adds it at the end. -/
theorem push (places : body.Places code) (keeps : body.Keeps id instruction) :
    ∃ after, body.push id = .ok after ∧ after.arena = body.arena ∧
      after.order = body.order ++ [id] ∧ after.slots = body.slots ∧
      after.clauses = body.clauses ∧ after.Places (code ++ [(id, instruction)]) := by
  obtain ⟨stored, notPlaced⟩ := keeps
  have created : id.index < body.arena.size := (Array.getElem?_eq_some_iff.mp stored).1
  refine ⟨{ body with order := body.order ++ [id] }, ?_, rfl, rfl, rfl, rfl, ?_⟩
  · rw [Body.push, if_neg (Nat.not_le.mpr created), if_neg notPlaced]
  · refine insert _ (by simpa using places) stored notPlaced (fun _ _ => rfl) ?_
    simp [places.order]

/-- A new instruction at the end. -/
theorem append (places : body.Places code) (instruction : Instruction) :
    (body.append instruction).2.Places (code ++ [(⟨body.arena.size⟩, instruction)]) := by
  refine insert _ (by simpa using places) (get?_create_self body instruction)
    places.fresh_notMem ?_ ?_
  · exact fun old placed => get?_create_of_lt instruction (places.created placed)
  · simp [Body.append, Body.create, places.order]

theorem appendAll (places : body.Places code) (instructions : List Instruction) :
    (body.appendAll instructions).Extends body ∧
      (body.appendAll instructions).Places (code ++ numbered body.arena.size instructions) := by
  induction instructions generalizing body code with
  | nil => exact ⟨.refl body, by simpa [numbered, Body.appendAll] using places⟩
  | cons instruction rest ih =>
      obtain ⟨extends_, placesRest⟩ := ih (places.append instruction)
      refine ⟨extends_.trans (extends_append body instruction), ?_⟩
      have size : (body.append instruction).2.arena.size = body.arena.size + 1 := by
        simp [Body.append, Body.create]
      simpa [size, numbered, Body.appendAll] using placesRest

private theorem insertIdx_append {α : Type} (front back : List α) (value : α) :
    (front ++ back).insertIdx front.length value = front ++ value :: back := by
  induction front with
  | nil => rfl
  | cons head rest ih => simp [ih]

/-- A new instruction at a position stands in front of the code from there on. -/
theorem insertAt (places : body.Places (front ++ back)) (instruction : Instruction) :
    (body.insertAt front.length instruction).2.Places
      (front ++ (⟨body.arena.size⟩, instruction) :: back) := by
  refine insert _ places (get?_create_self body instruction) places.fresh_notMem ?_ ?_
  · exact fun old placed => get?_create_of_lt instruction (places.created placed)
  · have inserted := insertIdx_append (front.map (·.1)) (back.map (·.1)) ⟨body.arena.size⟩
    rw [List.length_map] at inserted
    simpa [Body.insertAt, Body.create, places.order] using inserted

theorem insertBefore {anchored : Instruction}
    (places : body.Places (front ++ (anchor, anchored) :: back)) (instruction : Instruction) :
    ∃ after, body.insertBefore anchor instruction = .ok (⟨body.arena.size⟩, after) ∧
      after.Extends body ∧ after.arena.size = body.arena.size + 1 ∧
      after.Places (front ++ (⟨body.arena.size⟩, instruction) :: (anchor, anchored) :: back) := by
  have position : body.position? anchor = some front.length :=
    places.position?_eq_some_iff.mpr ⟨anchored, by simp⟩
  refine ⟨(body.insertAt front.length instruction).2, ?_, extends_insertAt .., ?_,
    places.insertAt instruction⟩
  · simp [Body.insertBefore, position, Body.insertAt, Body.create]
  · simp [Body.insertAt, Body.create]

theorem insertAfter {anchored : Instruction}
    (places : body.Places (front ++ (anchor, anchored) :: back)) (instruction : Instruction) :
    ∃ after, body.insertAfter anchor instruction = .ok (⟨body.arena.size⟩, after) ∧
      after.Extends body ∧ after.arena.size = body.arena.size + 1 ∧
      after.Places (front ++ (anchor, anchored) :: (⟨body.arena.size⟩, instruction) :: back) := by
  have position : body.position? anchor = some front.length :=
    places.position?_eq_some_iff.mpr ⟨anchored, by simp⟩
  have split : body.Places ((front ++ [(anchor, anchored)]) ++ back) := by
    simpa using places
  refine ⟨(body.insertAt (front.length + 1) instruction).2, ?_, extends_insertAt .., ?_, ?_⟩
  · simp [Body.insertAfter, position, Body.insertAt, Body.create]
  · simp [Body.insertAt, Body.create]
  · simpa using split.insertAt instruction

/-- Changing an instruction in place changes it in the code. -/
theorem replace {replaced : Instruction}
    (places : body.Places (front ++ (id, replaced) :: back)) (instruction : Instruction) :
    ∃ after, body.replace id instruction = .ok after ∧ after.Extends body ∧
      after.arena.size = body.arena.size ∧ after.Places (front ++ (id, instruction) :: back) := by
  have inOrder : id ∈ body.order := by simp [places.order]
  have others : ∀ other : InstrId, other ≠ id →
      (body.arena.setIfInBounds id.index instruction)[other.index]? = body.get? other := by
    intro other different
    rw [get?, Array.getElem?_setIfInBounds, if_neg]
    intro same
    exact different (by cases other; cases id; simpa using same.symm)
  refine ⟨{ body with arena := body.arena.setIfInBounds id.index instruction },
    if_pos (places.created inOrder), ?_, by simp, ?_⟩
  · refine ⟨rfl, rfl, rfl, rfl, by simp, fun _ placed => .inl placed, ?_⟩
    intro other _ notPlaced
    exact others other fun same => notPlaced (same ▸ inOrder)
  · refine ⟨by simp [places.order], ?_, places.nodup⟩
    have different : ∀ placed ∈ front ++ back, placed.1 ≠ id := by
      have nodup := places.nodup
      rw [places.order, List.map_append, List.map_cons, List.nodup_middle, List.nodup_cons,
        ← List.map_append] at nodup
      intro placed member same
      exact nodup.1 (List.mem_map.mpr ⟨placed, member, same⟩)
    intro placed member
    rw [List.mem_append, List.mem_cons] at member
    have old : placed ∈ front ++ back →
        (body.arena.setIfInBounds id.index instruction)[placed.1.index]? = some placed.2 := by
      intro member
      rw [others _ (different placed member)]
      apply places.stored
      simp only [List.mem_append, List.mem_cons] at member ⊢
      tauto
    rcases member with member | rfl | member
    · exact old (List.mem_append_left back member)
    · exact Array.getElem?_setIfInBounds_self_of_lt (places.created inOrder)
    · exact old (List.mem_append_right front member)

end Places

/-! ## Accounting for ids

Ids of new instructions are counted, whatever the order of the body says before the edits. So the
order after the edits is in order only if the one before was. -/

/-- Every instruction created since is placed once more than before, or still waits to be. -/
def Accounts (after before : Body) (waiting : List InstrId) : Prop :=
  before.arena.size ≤ after.arena.size ∧ ∀ id, after.order.count id + waiting.count id =
    before.order.count id +
      if before.arena.size ≤ id.index ∧ id.index < after.arena.size then 1 else 0

namespace Accounts

variable {after before : Body} {waiting : List InstrId}

theorem refl (body : Body) : body.Accounts body [] := by
  refine ⟨Nat.le_refl _, fun id => ?_⟩
  rw [if_neg (by omega)]
  rfl

private theorem mk_beq (size : Nat) (id : InstrId) :
    ((⟨size⟩ : InstrId) == id) = decide (id.index = size) := by
  obtain ⟨index⟩ := id
  rw [Bool.eq_iff_iff, beq_iff_eq, decide_eq_true_iff, InstrId.mk.injEq, eq_comm]

theorem create (accounts : after.Accounts before waiting) (instruction : Instruction) :
    (after.create instruction).2.Accounts before (⟨after.arena.size⟩ :: waiting) := by
  have grown := accounts.1
  refine ⟨by simp only [Body.create, Array.size_push]; omega, fun id => ?_⟩
  have counted := accounts.2 id
  simp only [Body.create, Array.size_push, List.count_cons, mk_beq, decide_eq_true_iff]
  split at counted <;> split_ifs <;> omega

theorem insertAt (accounts : after.Accounts before waiting) {position : Nat}
    (inside : position ≤ after.order.length) (instruction : Instruction) :
    (after.insertAt position instruction).2.Accounts before waiting := by
  have created := accounts.create instruction
  refine ⟨created.1, fun id => ?_⟩
  have counted := created.2 id
  rw [List.count_cons] at counted
  simp only [Body.insertAt, Body.create, (List.perm_insertIdx _ _ inside).count_eq,
    List.count_cons, Array.size_push] at counted ⊢
  rw [← counted]
  omega

theorem insertBefore {inserted : InstrId × Body} (accounts : after.Accounts before waiting)
    {instruction : Instruction}
    (inserts : after.insertBefore anchor instruction = .ok inserted) :
    inserted.2.Accounts before waiting := by
  simp only [Body.insertBefore] at inserts
  split at inserts
  next position located =>
    cases inserts
    exact accounts.insertAt (Nat.le_of_lt (position?_lt_length located)) instruction
  next => cases inserts

theorem insertAfter {inserted : InstrId × Body} (accounts : after.Accounts before waiting)
    {instruction : Instruction}
    (inserts : after.insertAfter anchor instruction = .ok inserted) :
    inserted.2.Accounts before waiting := by
  simp only [Body.insertAfter] at inserts
  split at inserts
  next position located =>
    cases inserts
    exact accounts.insertAt (position?_lt_length located) instruction
  next => cases inserts

/-- Changing an instruction in place changes no id. -/
theorem replace {replaced : Body} (accounts : after.Accounts before waiting)
    {instruction : Instruction} (replaces : after.replace id instruction = .ok replaced) :
    replaced.Accounts before waiting := by
  simp only [Body.replace] at replaces
  split at replaces
  next =>
    cases replaces
    simpa only [Accounts, Array.size_setIfInBounds] using accounts
  next => cases replaces

theorem append (accounts : after.Accounts before waiting) (instruction : Instruction) :
    (after.append instruction).2.Accounts before waiting := by
  have created := accounts.create instruction
  refine ⟨created.1, fun id => ?_⟩
  have counted := created.2 id
  rw [List.count_cons] at counted
  simp only [Body.append, Body.create, List.count_append, List.count_cons,
    List.count_nil, Array.size_push] at counted ⊢
  rw [← counted]
  omega

theorem appendAll (accounts : after.Accounts before waiting) (instructions : List Instruction) :
    (after.appendAll instructions).Accounts before waiting := by
  induction instructions generalizing after with
  | nil => exact accounts
  | cons instruction rest ih => exact ih (accounts.append instruction)

theorem push {placed : Body} (accounts : after.Accounts before waiting) (member : id ∈ waiting)
    (pushed : after.push id = .ok placed) : placed.Accounts before (waiting.erase id) := by
  simp only [Body.push] at pushed
  split_ifs at pushed
  cases pushed
  refine ⟨accounts.1, fun other => ?_⟩
  have counted := accounts.2 other
  rw [(List.perm_cons_erase member).count_eq, List.count_cons] at counted
  simp only [List.count_append, List.count_cons, List.count_nil]
  omega

/-- Once nothing waits, a body in order was in order before. -/
theorem ordered (accounts : after.Accounts before [])
    (created : ∀ id ∈ after.order, id.index < after.arena.size) (nodup : after.order.Nodup) :
    (∀ id ∈ before.order, id.index < before.arena.size) ∧ before.order.Nodup := by
  have once := List.nodup_iff_count_le_one.mp nodup
  constructor
  · intro id placed
    have counted := accounts.2 id
    rw [List.count_nil, Nat.add_zero] at counted
    have here := List.count_pos_iff.mpr placed
    have inside : id.index < after.arena.size := by
      apply created
      rw [← List.count_pos_iff]
      omega
    have atMost := once id
    split at counted <;> omega
  · rw [List.nodup_iff_count_le_one]
    intro id
    have counted := accounts.2 id
    rw [List.count_nil, Nat.add_zero] at counted
    exact Nat.le_trans (Nat.le_add_right _ _) (counted ▸ once id)

end Accounts

end Body

end Splice
