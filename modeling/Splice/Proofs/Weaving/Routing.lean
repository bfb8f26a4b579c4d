import Splice.Proofs.Weaving.Refusal

/-!
# Routed returns

Measuring a body disturbs nothing but its returns. They leave for the exit, where the only return is
left. All other instructions of the body stay what they are and where they are among each other,
ranges hold what stands in place of a return just if they held the return, and nothing that names
the first instruction comes to include the code in front of it.
-/

namespace Splice

variable {body woven before after : Body} {method : Method} {profiler : TypeExpr}
variable {members : ProfilerMembers} {first id anchor exit : InstrId} {instruction : Instruction}
variable {changed : List InstrId} {returnSlot : Option Nat} {fresh : Nat} {code : List Placed}
variable {placed : Placed}

namespace Body

/-! ## Instructions that stay -/

/-- Every instruction that was created before is what it was, but for the changed ones. -/
structure Preserves (after before : Body) (changed : List InstrId) : Prop where
  size : before.arena.size ≤ after.arena.size
  stored : ∀ id, id.index < before.arena.size → id ∉ changed → after.get? id = before.get? id

namespace Preserves

theorem refl (body : Body) (changed : List InstrId) : body.Preserves body changed :=
  ⟨Nat.le_refl _, fun _ _ _ => rfl⟩

theorem congr {next : Body} (preserves : after.Preserves before changed)
    (arena : next.arena = after.arena) : next.Preserves before changed := by
  refine ⟨arena ▸ preserves.size, ?_⟩
  intro id created kept
  rw [get?, arena]
  exact preserves.stored id created kept

theorem create (preserves : after.Preserves before changed) (instruction : Instruction) :
    (after.create instruction).2.Preserves before changed := by
  refine ⟨Nat.le_trans preserves.size (extends_create after instruction).size, ?_⟩
  intro id created kept
  rw [get?_create_of_lt instruction (Nat.lt_of_lt_of_le created preserves.size)]
  exact preserves.stored id created kept

theorem insertBefore {inserted : InstrId × Body} (preserves : after.Preserves before changed)
    (inserts : after.insertBefore anchor instruction = .ok inserted) :
    inserted.2.Preserves before changed := by
  simp only [Body.insertBefore] at inserts
  split at inserts
  next =>
    cases inserts
    exact (preserves.create instruction).congr rfl
  next => cases inserts

theorem insertAfter {inserted : InstrId × Body} (preserves : after.Preserves before changed)
    (inserts : after.insertAfter anchor instruction = .ok inserted) :
    inserted.2.Preserves before changed := by
  simp only [Body.insertAfter] at inserts
  split at inserts
  next =>
    cases inserts
    exact (preserves.create instruction).congr rfl
  next => cases inserts

theorem push {next : Body} (preserves : after.Preserves before changed)
    (pushed : after.push id = .ok next) : next.Preserves before changed := by
  simp only [Body.push] at pushed
  split_ifs at pushed
  cases pushed
  exact preserves.congr rfl

theorem replace {next : Body} (preserves : after.Preserves before changed) (member : id ∈ changed)
    (replaces : after.replace id instruction = .ok next) : next.Preserves before changed := by
  simp only [Body.replace] at replaces
  split_ifs at replaces
  cases replaces
  refine ⟨by simpa using preserves.size, ?_⟩
  intro other created kept
  have different : id.index ≠ other.index := by
    intro same
    have same : id = other := congrArg InstrId.mk same
    exact kept (same ▸ member)
  rw [← preserves.stored other created kept]
  exact Array.getElem?_setIfInBounds_ne different

theorem appendAll (preserves : after.Preserves before changed) (instructions : List Instruction) :
    (after.appendAll instructions).Preserves before changed := by
  induction instructions generalizing after with
  | nil => exact preserves
  | cons instruction rest ih => exact ih ((preserves.create instruction).congr rfl)

theorem insertAllBefore {next : Body} (preserves : after.Preserves before changed)
    {instructions : List Instruction}
    (inserts : after.insertAllBefore anchor instructions = .ok next) :
    next.Preserves before changed := by
  induction instructions generalizing after with
  | nil =>
      cases inserts
      exact preserves
  | cons instruction rest ih =>
      simp only [Body.insertAllBefore, List.foldlM_cons, bind_eq_ok_iff, pure_eq_ok_iff] at inserts
      obtain ⟨_, ⟨inserted, inserts, rfl⟩, insertsRest⟩ := inserts
      exact ih (preserves.insertBefore inserts) insertsRest

theorem routeReturns {next : Body} (preserves : after.Preserves before changed)
    {ids : List InstrId} (among : ids ⊆ changed)
    (routes : ids.foldlM (routeReturn · exit returnSlot) after = .ok next) :
    next.Preserves before changed := by
  induction ids generalizing after with
  | nil =>
      cases routes
      exact preserves
  | cons id rest ih =>
      rw [List.cons_subset] at among
      rw [List.foldlM_cons, bind_eq_ok_iff] at routes
      obtain ⟨between, routesHere, routesRest⟩ := routes
      refine ih ?_ among.2 routesRest
      cases returnSlot with
      | none => exact preserves.replace among.1 routesHere
      | some slot =>
          simp only [routeReturn, bind_eq_ok_iff, pure_eq_ok_iff] at routesHere
          obtain ⟨replaced, replaces, _, inserts, rfl⟩ := routesHere
          exact (preserves.replace among.1 replaces).insertAfter inserts

end Preserves

/-- Measuring changes no instruction but the placed returns, whether it is placed or not. -/
theorem preserves_measure (measured : body.measure method profiler members = .ok woven) :
    woven.Preserves body body.returns := by
  cases start : body.first? with
  | none =>
      rw [measure, start] at measured
      cases measured
  | some first =>
      rw [measure_eq start] at measured
      split_ifs at measured
      simp only [addProfiler, bind_eq_ok_iff, pure_eq_ok_iff] at measured
      obtain ⟨started, inserts, routed, routes, stopped, pushesStop, placed, pushesExit, _, _,
        rfl⟩ := measured
      have wide : (body.withSlots (method.returnTypes ++ [profiler])).Preserves body
          body.returns := (Preserves.refl body _).congr rfl
      have created := ((wide.insertAllBefore inserts).create
        (.loadSlot (body.addedSlot method))).create (exitHead (method.returnSlot? body))
      have stopPlaced := (created.routeReturns (List.Subset.refl _) routes).push pushesStop
      have exitPlaced := (stopPlaced.appendAll (stopCode members)).push pushesExit
      exact (exitPlaced.appendAll (exitTail (method.returnSlot? body))).congr rfl

end Body

/-! ## Returns in the measured code -/

theorem exists_getElem?_of_mem_returnIds (member : id ∈ Body.returnIds code) :
    ∃ (position : Nat) (instruction : Instruction), code[position]? = some (id, instruction) ∧
      isReturn (id, instruction) = true := by
  obtain ⟨⟨_, instruction⟩, found, rfl⟩ := List.mem_map.mp member
  obtain ⟨listed, isRet⟩ := List.mem_filter.mp found
  obtain ⟨position, found⟩ := List.mem_iff_getElem?.mp listed
  exact ⟨position, instruction, found, isRet⟩

theorem not_isReturn_of_mem_numbered {start : Nat} {instructions : List Instruction}
    (straight : ∀ instruction ∈ instructions, instruction.op ≠ .ret)
    (member : placed ∈ numbered start instructions) : isReturn placed = false := by
  simpa [isReturn] using straight _ (mem_of_mem_numbered member)

theorem not_isReturn_of_mem_routed (member : placed ∈ routed exit returnSlot fresh code) :
    isReturn placed = false := by
  induction code generalizing fresh with
  | nil => cases member
  | cons head rest ih =>
      rw [routed] at member
      split_ifs at member with isRet
      · rcases List.mem_append.mp member with here | later
        · cases returnSlot with
          | none =>
              rw [routedReturn, List.mem_singleton] at here
              rw [here]
              rfl
          | some slot =>
              simp only [routedReturn, List.mem_cons, List.not_mem_nil, or_false] at here
              rcases here with rfl | rfl <;> rfl
        · exact ih later
      · rcases List.mem_cons.mp member with rfl | later
        · exact Bool.not_eq_true _ ▸ isRet
        · exact ih later

/-- The routed code keeps the ids in their order. -/
theorem sublist_routed (exit : InstrId) (returnSlot : Option Nat) (fresh : Nat)
    (code : List Placed) :
    (code.map (·.1)).Sublist ((routed exit returnSlot fresh code).map (·.1)) := by
  induction code generalizing fresh with
  | nil => exact .slnil
  | cons head rest ih =>
      rw [routed]
      split_ifs
      · rw [List.map_append]
        cases returnSlot with
        | none => exact (ih _).cons_cons _
        | some slot => exact ((ih _).cons _).cons_cons _
      · exact (ih _).cons_cons _

/-- A measured body ends with its only return. -/
theorem exists_measureCode_eq (size profilerSlot : Nat) (members : ProfilerMembers)
    (returnSlot : Option Nat) (code : List Placed) :
    ∃ front id, measureCode size members profilerSlot returnSlot code =
        front ++ [(id, ⟨.ret, .none⟩)] ∧ ∀ placed ∈ front, isReturn placed = false := by
  have starts : ∀ instruction ∈ startCode members profilerSlot, instruction.op ≠ .ret := by
    simp [startCode, Instruction.invoke, Instruction.storeSlot, Instruction.loadSlot]
  have stops : ∀ instruction ∈ stopCode members, instruction.op ≠ .ret := by
    simp [stopCode, Instruction.invoke]
  -- Everything in front of the exit is free of returns, whatever the exit returns.
  obtain ⟨front, split, straight⟩ : ∃ front, measureCode size members profilerSlot returnSlot code =
      front ++ (⟨size + 6⟩, Body.exitHead returnSlot) ::
        numbered (size + 7 + addedIn returnSlot code + 2) (Body.exitTail returnSlot) ∧
      ∀ placed ∈ front, isReturn placed = false := by
    refine ⟨numbered size (startCode members profilerSlot) ++
      routed ⟨size + 6⟩ returnSlot (size + 7) code ++ (⟨size + 5⟩, .loadSlot profilerSlot) ::
        numbered (size + 7 + addedIn returnSlot code) (stopCode members),
      by simp [measureCode, measureTail], ?_⟩
    intro placed member
    simp only [List.mem_append, List.mem_cons] at member
    rcases member with (start | inside) | rfl | stop
    · exact not_isReturn_of_mem_numbered starts start
    · exact not_isReturn_of_mem_routed inside
    · rfl
    · exact not_isReturn_of_mem_numbered stops stop
  cases returnSlot with
  | none => exact ⟨front, ⟨size + 6⟩, split, straight⟩
  | some slot =>
      refine ⟨front ++ [(⟨size + 6⟩, .loadSlot slot)],
        ⟨size + 7 + addedIn (some slot) code + 2⟩, ?_,
        List.forall_mem_append.mpr ⟨straight, List.forall_mem_singleton.mpr rfl⟩⟩
      rw [split, List.append_assoc]
      rfl

namespace Body

/-! ## The shape of a measured body -/

/-- What stands in place of a return from the position on: it leaves for the exit, by way of a slot
for the value that it returns. Only the instruction that leaves behind the slot is a new one. -/
def RoutesAt (woven body : Body) (exit : InstrId) (id : InstrId) (position : Nat) :
    Option Nat → Prop
  | none => woven.get? id = some (.leaveTo exit)
  | some slot => woven.get? id = some (.storeSlot slot) ∧
      ∃ next, body.arena.size ≤ next.index ∧ woven.position? next = some (position + 1) ∧
        woven.get? next = some (.leaveTo exit)

/-- The clause has ranges in both bodies. Those in the woven body keep clear of the first positions,
and hold what stands in place of a return just if the old ranges hold the return. -/
structure CarriesOver (woven body : Body) (returnSlot : Option Nat) (clause : Clause)
    (old new : Region) : Prop where
  oldClause : old.clause = clause
  newClause : new.clause = clause
  oldPlaced : old.IsPlacedIn body
  newPlaced : new.IsPlacedIn woven
  clear : ∀ range ∈ new.ranges, 5 ≤ range.start
  holds : ∀ id ∈ body.returns, ∀ position place, body.position? id = some position →
    woven.position? id = some place → ∀ offset ≤ perReturn returnSlot,
      new.guarded.contains (place + offset) = old.guarded.contains position ∧
        new.handler.contains (place + offset) = old.handler.contains position

/-- What measuring makes of a body with the clause that it adds. -/
structure IsRerouted (woven body : Body) (method : Method) (profiler : TypeExpr)
    (members : ProfilerMembers) (clause : Clause) : Prop where
  clauses : woven.clauses = body.clauses ++ [clause]
  slots : woven.slots = body.slots ++ (method.returnTypes ++ [profiler]).toArray
  /-- The only return stands at the end. -/
  last : ∃ id, woven.returns = [id] ∧ woven.last? = some id
  /-- The former returns are where they were, and leave for the end of the added handler. -/
  returns : ∀ id ∈ body.returns, ∃ position, woven.position? id = some position ∧
    woven.RoutesAt body clause.handlerEnd id position (method.returnSlot? body)
  kept : ∀ id, id.index < body.arena.size → id ∉ body.returns → woven.get? id = body.get? id
  order : body.order.Sublist woven.order
  /-- The code in front of the body consists of new instructions. -/
  prologue : ∃ rest, woven.instructions =
    numbered body.arena.size (startCode members (body.addedSlot method)) ++ rest
  /-- Behind it stands the former first instruction, where the added protected range starts. -/
  start : body.first? = some clause.tryStart ∧ woven.position? clause.tryStart =
    some (startCode members (body.addedSlot method)).length
  ranges : ∀ own ∈ body.clauses, (∀ id ∈ own.boundaries, id.index < body.arena.size) →
    ∃ old new, woven.CarriesOver body (method.returnSlot? body) own old new

namespace IsMeasured

theorem last (isMeasured : woven.IsMeasured body method profiler members first code) :
    ∃ id, woven.returns = [id] ∧ woven.last? = some id := by
  obtain ⟨front, id, shape, straight⟩ := exists_measureCode_eq body.arena.size
    (body.addedSlot method) members (method.returnSlot? body) code
  refine ⟨id, ?_, ?_⟩
  · have none : front.filter isReturn = [] :=
      List.filter_eq_nil_iff.mpr fun placed member => by simp [straight placed member]
    rw [returns_eq isMeasured.places, shape, returnIds, List.filter_append, none]
    rfl
  · rw [last?, isMeasured.places.order, shape, List.map_append, List.map_singleton,
      List.getLast?_concat]

theorem routesAt (isMeasured : woven.IsMeasured body method profiler members first code)
    {position : Nat} (found : code[position]? = some (id, instruction))
    (isRet : isReturn (id, instruction) = true) :
    woven.RoutesAt body ⟨body.arena.size + 6⟩ id
      (measurePlace (method.returnSlot? body) code position) (method.returnSlot? body) := by
  have places := isMeasured.places
  cases slot : method.returnSlot? body with
  | none =>
      rw [slot] at places
      exact places.get?_of_getElem? (getElem?_measureCode_left found isRet)
  | some slot =>
      rw [slot] at places
      obtain ⟨stores, leaves⟩ := getElem?_measureCode_stored found isRet
      refine ⟨places.get?_of_getElem? stores, _, ?_, places.position?_of_getElem? leaves,
        places.get?_of_getElem? leaves⟩
      dsimp only
      omega

/-- The clauses that name instructions of the body only keep their ranges. -/
theorem exists_carriesOver (isMeasured : woven.IsMeasured body method profiler members first code)
    (checked : woven.check = .ok ()) {clause : Clause} (listed : clause ∈ body.clauses)
    (owned : ∀ id ∈ clause.boundaries, id.index < body.arena.size) :
    ∃ old new, woven.CarriesOver body (method.returnSlot? body) clause old new := by
  obtain ⟨regions, wellFormed⟩ := check_eq_ok_iff.mp checked
  have surrounds := isMeasured.surrounds
  have inTable : clause ∈ woven.clauses := by
    rw [isMeasured.clauses]
    exact List.mem_append_left _ listed
  have placed : ∀ id ∈ clause.boundaries, id ∈ body.order := fun id bounds =>
    isMeasured.addsFresh id (wellFormed.hasRegions.mem_order inTable bounds) (owned id bounds)
  obtain ⟨old, rfl, oldPlaced⟩ := exists_isPlacedIn placed
  refine ⟨old, old.shift (measurePlace (method.returnSlot? body) code), rfl, rfl, oldPlaced,
    ⟨surrounds.position _ _ oldPlaced.tryStart, surrounds.position _ _ oldPlaced.tryEnd,
      surrounds.position _ _ oldPlaced.handlerStart,
      surrounds.position _ _ oldPlaced.handlerEnd⟩, ?_, ?_⟩
  · intro range member
    rw [Region.ranges_shift, List.mem_map] at member
    obtain ⟨range, _, rfl⟩ := member
    simp only [Range.shift, measurePlace]
    omega
  · intro id returned position place located moved offset inside
    rw [returns_eq isMeasured.original] at returned
    obtain ⟨stands, instruction, found, isRet⟩ := exists_getElem?_of_mem_returnIds returned
    have here := isMeasured.original.position?_of_getElem? found
    obtain rfl : stands = position := Option.some.inj (here.symm.trans located)
    obtain rfl : measurePlace (method.returnSlot? body) code stands = place :=
      Option.some.inj ((surrounds.position _ _ located).symm.trans moved)
    exact ⟨contains_shift_measurePlace found isRet inside old.guarded,
      contains_shift_measurePlace found isRet inside old.handler⟩

end IsMeasured

end Body

/-- Measuring a body routes its returns to one exit and disturbs nothing else. -/
theorem isRerouted_of_wrap {method after : Method} {binder : Binder} {body : Body}
    (bodied : method.body = some body)
    (wrapped : (method.wrap (.measure profiler) binder).1 = .ok after) :
    ∃ members woven clause, (binder.profilerMembers profiler).1 = .ok members ∧
      after = { method with body := some woven } ∧
      woven.IsRerouted body method profiler members clause := by
  obtain ⟨members, found, woven, measured, rfl⟩ :=
    (Method.wrap_measure_eq_ok_iff bodied).mp wrapped
  obtain ⟨checked, first, code, isMeasured⟩ := Body.isMeasured_of_measure measured
  have surrounds := isMeasured.surrounds
  refine ⟨members, woven, _, found, rfl, isMeasured.clauses, isMeasured.slots, isMeasured.last, ?_,
    (Body.preserves_measure measured).stored, ?_, ?_, ⟨isMeasured.start, surrounds.placed.tryStart⟩,
    fun own listed owned => isMeasured.exists_carriesOver checked listed owned⟩
  · intro id returned
    rw [Body.returns_eq isMeasured.original] at returned
    obtain ⟨position, instruction, found, isRet⟩ := exists_getElem?_of_mem_returnIds returned
    exact ⟨_, surrounds.position _ _ (isMeasured.original.position?_of_getElem? found),
      isMeasured.routesAt found isRet⟩
  · rw [isMeasured.original.order, isMeasured.places.order, measureCode, List.map_append,
      List.map_append]
    have inside := sublist_routed ⟨body.arena.size + 6⟩ (method.returnSlot? body)
      (body.arena.size + 7) code
    exact (inside.trans (List.sublist_append_right _ _)).trans (List.sublist_append_left _ _)
  · rw [isMeasured.places.instructions_eq, measureCode, List.append_assoc]
    exact ⟨_, rfl⟩

namespace Sample

/-- A method that returns from inside a protected range, at its end, and behind it. -/
def returning : Method where
  name := "M"
  returns := .named "System.Int32"
  isStatic := true
  body := some
    { Body.empty.appendAll [.constant 7, ⟨.ret, .none⟩, .leaveTo ⟨3⟩, .constant 1,
        ⟨.ret, .none⟩] with
      clauses := [.guarding ⟨0⟩ ⟨2⟩ ⟨3⟩ exceptionType] }

end Sample

/-- Two returns that store a value and leave, one of them under protection. -/
theorem isRerouted_of_wrap_returning :
    ∃ after body members woven clause, Sample.returning.body = some body ∧
      (Sample.returning.wrap (.measure Sample.monitorType) Sample.binder).1 = .ok after ∧
      (Sample.binder.profilerMembers Sample.monitorType).1 = .ok members ∧
      after = { Sample.returning with body := some woven } ∧
      woven.IsRerouted body Sample.returning Sample.monitorType members clause := by
  have succeeds : (Sample.returning.wrap (.measure Sample.monitorType)
      Sample.binder).1.toOption.any Method.hasBody = true := by decide +kernel
  obtain ⟨after, wrapped, _⟩ := exists_eq_ok_of_any succeeds
  obtain ⟨members, woven, clause, found, same, isRerouted⟩ := isRerouted_of_wrap rfl wrapped
  exact ⟨after, _, members, woven, clause, rfl, wrapped, found, same, isRerouted⟩

end Splice
