import Splice.Proofs.Weaving.Surround

/-!
# Measured bodies

Measuring a body puts the code that starts the profiler in front of it and the code that stops it
behind. A return that has to store a value becomes two instructions, so the code between moves by
one more place for every such return in front of it.
-/

namespace Splice

variable {returnSlot : Option Nat} {exit id : InstrId} {instruction : Instruction} {fresh : Nat}
variable {front back code : List Placed}

/-! ## Routed returns -/

def isReturn (placed : Placed) : Bool :=
  placed.2.op == .ret

/-- How many instructions are added for each return. -/
def perReturn (returnSlot : Option Nat) : Nat :=
  if returnSlot.isSome then 1 else 0

/-- How many instructions are added in some code. -/
def addedIn (returnSlot : Option Nat) (code : List Placed) : Nat :=
  perReturn returnSlot * code.countP isReturn

/-- What stands in place of a return. -/
def routedReturn (exit : InstrId) (returnSlot : Option Nat) (id : InstrId) (fresh : Nat) :
    List Placed :=
  match returnSlot with
  | some slot => [(id, .storeSlot slot), (⟨fresh⟩, .leaveTo exit)]
  | none => [(id, .leaveTo exit)]

/-- The code with its returns replaced. -/
def routed (exit : InstrId) (returnSlot : Option Nat) : (fresh : Nat) → List Placed → List Placed
  | _, [] => []
  | fresh, placed :: rest =>
    if isReturn placed then
      routedReturn exit returnSlot placed.1 fresh ++
        routed exit returnSlot (fresh + perReturn returnSlot) rest
    else placed :: routed exit returnSlot fresh rest

theorem addedIn_append (front back : List Placed) :
    addedIn returnSlot (front ++ back) = addedIn returnSlot front + addedIn returnSlot back := by
  simp [addedIn, List.countP_append, Nat.mul_add]

theorem addedIn_cons_of_isReturn {placed : Placed} (isRet : isReturn placed = true) :
    addedIn returnSlot (placed :: back) = addedIn returnSlot back + perReturn returnSlot := by
  rw [addedIn, List.countP_cons_of_pos isRet, Nat.mul_succ]
  rfl

theorem addedIn_cons_of_not {placed : Placed} (notRet : ¬ isReturn placed = true) :
    addedIn returnSlot (placed :: back) = addedIn returnSlot back := by
  rw [addedIn, List.countP_cons_of_neg notRet]
  rfl

theorem length_routedReturn :
    (routedReturn exit returnSlot id fresh).length = 1 + perReturn returnSlot := by
  cases returnSlot <;> rfl

theorem length_routed (code : List Placed) :
    (routed exit returnSlot fresh code).length = code.length + addedIn returnSlot code := by
  induction code generalizing fresh with
  | nil => rfl
  | cons placed rest ih =>
      rw [routed]
      split_ifs with isRet
      · rw [List.length_append, length_routedReturn, ih, addedIn_cons_of_isReturn isRet,
          List.length_cons]
        omega
      · rw [List.length_cons, ih, addedIn_cons_of_not isRet, List.length_cons]
        omega

theorem routed_append (front back : List Placed) :
    routed exit returnSlot fresh (front ++ back) =
      routed exit returnSlot fresh front ++
        routed exit returnSlot (fresh + addedIn returnSlot front) back := by
  induction front generalizing fresh with
  | nil => rfl
  | cons placed rest ih =>
      rw [List.cons_append, routed, routed]
      split_ifs with isRet
      · rw [ih, addedIn_cons_of_isReturn isRet, List.append_assoc, Nat.add_assoc,
          Nat.add_comm (perReturn returnSlot)]
      · rw [ih, addedIn_cons_of_not isRet, List.cons_append]

/-- Where the code from a position on stands among the routed code. -/
theorem drop_routed (code : List Placed) (position : Nat) (inside : position ≤ code.length) :
    (routed exit returnSlot fresh code).drop
        (position + addedIn returnSlot (code.take position)) =
      routed exit returnSlot (fresh + addedIn returnSlot (code.take position))
        (code.drop position) := by
  have split : routed exit returnSlot fresh (code.take position ++ code.drop position) = _ :=
    routed_append (code.take position) (code.drop position)
  rw [List.take_append_drop] at split
  rw [split]
  apply List.drop_left'
  rw [length_routed, List.length_take_of_le inside]

/-! ## The edits -/

namespace Body

variable {body before : Body} {waiting : List InstrId} {anchor : InstrId} {anchored : Instruction}

theorem insertAllBefore_of_places (instructions : List Instruction)
    (places : body.Places (front ++ (anchor, anchored) :: back)) :
    ∃ after, body.insertAllBefore anchor instructions = .ok after ∧ after.Extends body ∧
      after.arena.size = body.arena.size + instructions.length ∧
      after.Places
        (front ++ numbered body.arena.size instructions ++ (anchor, anchored) :: back) := by
  induction instructions generalizing body front with
  | nil => exact ⟨body, rfl, .refl body, rfl, by simpa [numbered] using places⟩
  | cons instruction rest ih =>
      obtain ⟨next, inserted, extends_, size, placesNext⟩ := places.insertBefore instruction
      have moved : next.Places
          ((front ++ [(⟨body.arena.size⟩, instruction)]) ++ (anchor, anchored) :: back) := by
        simpa using placesNext
      obtain ⟨after, insertedRest, extendsRest, sizeRest, placesRest⟩ := ih moved
      refine ⟨after, ?_, extendsRest.trans extends_, ?_, ?_⟩
      · simp only [insertAllBefore, List.foldlM_cons, inserted, ok_bind]
        exact insertedRest
      · rw [sizeRest, size, List.length_cons]
        omega
      · simpa [numbered, size] using placesRest

theorem Accounts.insertAllBefore {after : Body} (accounts : body.Accounts before waiting)
    {instructions : List Instruction}
    (inserts : body.insertAllBefore anchor instructions = .ok after) :
    after.Accounts before waiting := by
  induction instructions generalizing body with
  | nil =>
      cases inserts
      exact accounts
  | cons instruction rest ih =>
      simp only [Body.insertAllBefore, List.foldlM_cons, bind_eq_ok_iff, pure_eq_ok_iff] at inserts
      obtain ⟨_, ⟨inserted, inserts, rfl⟩, insertsRest⟩ := inserts
      exact ih (accounts.insertBefore inserts) insertsRest

/-- Routing one return. -/
private theorem routeReturn_of_places (exit : InstrId) (returnSlot : Option Nat)
    (places : body.Places (front ++ (id, instruction) :: back)) :
    ∃ after, body.routeReturn exit returnSlot id = .ok after ∧ after.Extends body ∧
      after.arena.size = body.arena.size + perReturn returnSlot ∧
      after.Places (front ++ routedReturn exit returnSlot id body.arena.size ++ back) := by
  cases returnSlot with
  | none =>
      obtain ⟨after, replaced, extends_, size, placesAfter⟩ := places.replace (.leaveTo exit)
      exact ⟨after, replaced, extends_, size, by simpa [routedReturn] using placesAfter⟩
  | some slot =>
      obtain ⟨next, replaced, extendsNext, sizeNext, placesNext⟩ := places.replace (.storeSlot slot)
      obtain ⟨after, inserted, extends_, size, placesAfter⟩ :=
        placesNext.insertAfter (.leaveTo exit)
      refine ⟨after, ?_, extends_.trans extendsNext, ?_, ?_⟩
      · simp only [routeReturn, replaced, ok_bind, inserted]
        rfl
      · rw [size, sizeNext]
        rfl
      · simpa [routedReturn, sizeNext] using placesAfter

/-- The ids of the returns in some code. -/
def returnIds (code : List Placed) : List InstrId :=
  (code.filter isReturn).map (·.1)

/-- Routing every return of some code. -/
theorem routeReturns_of_places (exit : InstrId) (returnSlot : Option Nat) (code : List Placed)
    (places : body.Places (front ++ code)) :
    ∃ after, (returnIds code).foldlM (routeReturn · exit returnSlot) body = .ok after ∧
      after.Extends body ∧ after.arena.size = body.arena.size + addedIn returnSlot code ∧
      after.Places (front ++ routed exit returnSlot body.arena.size code) := by
  induction code generalizing body front with
  | nil => exact ⟨body, rfl, .refl body, rfl, by simpa [routed] using places⟩
  | cons placed rest ih =>
      by_cases isRet : isReturn placed
      · obtain ⟨next, routedHere, extendsNext, sizeNext, placesNext⟩ :=
          routeReturn_of_places exit returnSlot places
        obtain ⟨after, routedRest, extends_, size, placesAfter⟩ := ih placesNext
        refine ⟨after, ?_, extends_.trans extendsNext, ?_, ?_⟩
        · rw [returnIds, List.filter_cons_of_pos isRet, List.map_cons, List.foldlM_cons, routedHere,
            ok_bind]
          exact routedRest
        · rw [size, sizeNext, addedIn_cons_of_isReturn isRet]
          omega
        · rw [routed, if_pos isRet, ← List.append_assoc]
          rwa [sizeNext] at placesAfter
      · have moved : body.Places ((front ++ [placed]) ++ rest) := by simpa using places
        obtain ⟨after, routedRest, extends_, size, placesAfter⟩ := ih moved
        refine ⟨after, ?_, extends_, ?_, ?_⟩
        · rw [returnIds, List.filter_cons_of_neg isRet]
          exact routedRest
        · rw [size, addedIn_cons_of_not isRet]
        · rw [routed, if_neg isRet]
          simpa using placesAfter

/-! ## The whole operation -/

theorem Accounts.routeReturns {after : Body} (accounts : body.Accounts before waiting)
    {ids : List InstrId} (routes : ids.foldlM (routeReturn · exit returnSlot) body = .ok after) :
    after.Accounts before waiting := by
  induction ids generalizing body with
  | nil =>
      cases routes
      exact accounts
  | cons id rest ih =>
      rw [List.foldlM_cons, bind_eq_ok_iff] at routes
      obtain ⟨next, routesHere, routesRest⟩ := routes
      refine ih ?_ routesRest
      cases returnSlot with
      | none => exact accounts.replace routesHere
      | some slot =>
          simp only [routeReturn, bind_eq_ok_iff, pure_eq_ok_iff] at routesHere
          obtain ⟨replaced, replaces, _, inserts, rfl⟩ := routesHere
          exact (accounts.replace replaces).insertAfter inserts

end Body

/-- The code that measuring adds at the end. Its first instruction and the exit are created before
the returns are routed. -/
def measureTail (size fresh : Nat) (members : ProfilerMembers) (profilerSlot : Nat)
    (returnSlot : Option Nat) : List Placed :=
  (⟨size + 5⟩, .loadSlot profilerSlot) :: numbered fresh (stopCode members) ++
    (⟨size + 6⟩, Body.exitHead returnSlot) :: numbered (fresh + 2) (Body.exitTail returnSlot)

/-- The code of a measured body. -/
def measureCode (size : Nat) (members : ProfilerMembers) (profilerSlot : Nat)
    (returnSlot : Option Nat) (code : List Placed) : List Placed :=
  numbered size (startCode members profilerSlot) ++
    routed ⟨size + 6⟩ returnSlot (size + 7) code ++
    measureTail size (size + 7 + addedIn returnSlot code) members profilerSlot returnSlot

namespace Body

variable {body woven : Body} {method : Method} {profiler : TypeExpr} {members : ProfilerMembers}
variable {first : InstrId} {code : List Placed}

/-- What measuring makes of a body that starts with `first` and places `code`. -/
structure IsMeasured (woven body : Body) (method : Method) (profiler : TypeExpr)
    (members : ProfilerMembers) (first : InstrId) (code : List Placed) : Prop where
  original : body.Places code
  start : body.first? = some first
  returns : ∃ placed ∈ code, isReturn placed = true
  room : body.addedSlot method < slotLimit
  places : woven.Places (measureCode body.arena.size members (body.addedSlot method)
    (method.returnSlot? body) code)
  slots : woven.slots = body.slots ++ (method.returnTypes ++ [profiler]).toArray
  clauses : woven.clauses = body.clauses ++
    [.finishing first ⟨body.arena.size + 5⟩ ⟨body.arena.size + 6⟩]

/-- Add the profiler to a body that has its new slots already. -/
def addProfiler (wide : Body) (returns : List InstrId) (first : InstrId)
    (members : ProfilerMembers) (profilerSlot : Nat) (returnSlot : Option Nat) :
    Except Flaw Body := do
  let wide ← wide.insertAllBefore first (startCode members profilerSlot)
  let (finallyStart, wide) := wide.create (.loadSlot profilerSlot)
  let (exit, wide) := wide.create (exitHead returnSlot)
  let wide ← returns.foldlM (routeReturn · exit returnSlot) wide
  let wide ← wide.push finallyStart
  let wide ← (wide.appendAll (stopCode members)).push exit
  let wide := ((wide.appendAll (exitTail returnSlot)).addClause
    (.finishing first finallyStart exit)).raiseHeader measureDepth
  wide.check
  return wide

theorem measure_eq (start : body.first? = some first) :
    body.measure method profiler members =
      if body.returns.isEmpty then .error (.noReturn method.name)
      else if body.addedSlot method < slotLimit then
        (body.withSlots (method.returnTypes ++ [profiler])).addProfiler body.returns first members
          (body.addedSlot method) (method.returnSlot? body)
      else .error .tooManySlots := by
  simp only [measure]
  rw [start]
  dsimp only
  split
  · rfl
  · exact addSlots_bind method body profiler fun returnSlot profilerSlot wide =>
      wide.addProfiler body.returns first members profilerSlot returnSlot

/-- Adding the profiler to a body that places code comes down to the check of what it makes. -/
private theorem addProfiler_of_places {wide : Body} {anchored : Instruction}
    {rest : List Placed} (places : wide.Places ((first, anchored) :: rest))
    (members : ProfilerMembers) (profilerSlot : Nat) (returnSlot : Option Nat) :
    ∃ woven, woven.Places (measureCode wide.arena.size members profilerSlot returnSlot
        ((first, anchored) :: rest)) ∧
      woven.slots = wide.slots ∧
      woven.clauses = wide.clauses ++
        [.finishing first ⟨wide.arena.size + 5⟩ ⟨wide.arena.size + 6⟩] ∧
      wide.addProfiler (returnIds ((first, anchored) :: rest)) first members profilerSlot
          returnSlot = do
        woven.check
        return woven := by
  have placesFirst : wide.Places ([] ++ (first, anchored) :: rest) := places
  obtain ⟨started, inserted, extendsStarted, sizeStarted, placesStarted⟩ :=
    insertAllBefore_of_places (startCode members profilerSlot) placesFirst
  have sizeStarted : started.arena.size = wide.arena.size + 5 := sizeStarted
  have keepsStop := placesStarted.keeps_create (.loadSlot profilerSlot)
  have placesStop := placesStarted.create (.loadSlot profilerSlot)
  have keepsExit := placesStop.keeps_create (exitHead returnSlot)
  have placesExit := placesStop.create (exitHead returnSlot)
  have sizeStop : (started.create (.loadSlot profilerSlot)).2.arena.size = wide.arena.size + 6 := by
    simp [create, sizeStarted]
  have sizeExit : ((started.create (.loadSlot profilerSlot)).2.create
      (exitHead returnSlot)).2.arena.size = wide.arena.size + 7 := by
    simp [create, sizeStarted]
  rw [sizeStarted] at keepsStop
  rw [sizeStop] at keepsExit
  obtain ⟨routedBody, routes, extendsRouted, sizeRouted, placesRouted⟩ :=
    routeReturns_of_places ⟨wide.arena.size + 6⟩ returnSlot _ placesExit
  rw [sizeExit] at sizeRouted placesRouted
  obtain ⟨stopped, pushedStop, arenaStop, orderStop, slotsStop, clausesStop, placesStopped⟩ :=
    placesRouted.push ((keepsStop.extends_ (extends_create _ _)).extends_ extendsRouted)
  have keepsExit := (keepsExit.extends_ extendsRouted).push arenaStop orderStop (by simp)
  obtain ⟨extendsCalled, placesCalled⟩ := placesStopped.appendAll (stopCode members)
  obtain ⟨placed, pushedExit, arenaExit, _, slotsExit, clausesExit, placesPlaced⟩ :=
    placesCalled.push (keepsExit.extends_ extendsCalled)
  obtain ⟨extendsTail, placesTail⟩ := placesPlaced.appendAll (exitTail returnSlot)
  refine ⟨((placed.appendAll (exitTail returnSlot)).addClause (.finishing first
    ⟨wide.arena.size + 5⟩ ⟨wide.arena.size + 6⟩)).raiseHeader measureDepth, ?_, ?_, ?_, ?_⟩
  · have sizeStopped : stopped.arena.size =
        wide.arena.size + 7 + addedIn returnSlot ((first, anchored) :: rest) := by
      rw [arenaStop, sizeRouted]
    have sizePlaced : placed.arena.size =
        wide.arena.size + 7 + addedIn returnSlot ((first, anchored) :: rest) + 2 := by
      rw [arenaExit, size_appendAll, sizeStopped]
      rfl
    rw [sizeStopped, sizePlaced] at placesTail
    have shaped : (placed.appendAll (exitTail returnSlot)).Places (measureCode wide.arena.size
        members profilerSlot returnSlot ((first, anchored) :: rest)) := by
      simpa [measureCode, measureTail] using placesTail
    exact shaped.congr rfl rfl
  · calc (placed.appendAll (exitTail returnSlot)).slots
        = stopped.slots := (extendsTail.slots.trans slotsExit).trans extendsCalled.slots
      _ = wide.slots := (slotsStop.trans extendsRouted.slots).trans extendsStarted.slots
  · have kept : (placed.appendAll (exitTail returnSlot)).clauses = wide.clauses :=
      calc (placed.appendAll (exitTail returnSlot)).clauses
          = stopped.clauses := (extendsTail.clauses.trans clausesExit).trans extendsCalled.clauses
        _ = wide.clauses :=
          (clausesStop.trans extendsRouted.clauses).trans extendsStarted.clauses
    exact congrArg (· ++ _) kept
  · have stop : (started.create (.loadSlot profilerSlot)).1 = ⟨wide.arena.size + 5⟩ :=
      congrArg InstrId.mk sizeStarted
    have exit : ((started.create (.loadSlot profilerSlot)).2.create (exitHead returnSlot)).1 =
        ⟨wide.arena.size + 6⟩ := congrArg InstrId.mk sizeStop
    rw [← exit] at routes pushedExit
    rw [← stop] at pushedStop
    rw [addProfiler, inserted, ok_bind]
    apply (congrArg (· >>= _) routes).trans
    rw [ok_bind]
    apply (congrArg (· >>= _) pushedStop).trans
    rw [ok_bind]
    apply (congrArg (· >>= _) pushedExit).trans
    rw [ok_bind, ← stop, ← exit]
    rfl

theorem returns_eq (places : body.Places code) : body.returns = returnIds code := by
  rw [returns, places.instructions_eq]
  rfl

theorem returnIds_isEmpty_iff :
    (returnIds code).isEmpty = false ↔ ∃ placed ∈ code, isReturn placed := by
  simp [returnIds, List.isEmpty_eq_false_iff]

/-- Measuring a body that places code comes down to the check of what it makes. -/
theorem measure_of_places (places : body.Places code) (start : body.first? = some first)
    (returns : ∃ placed ∈ code, isReturn placed = true) (room : body.addedSlot method < slotLimit) :
    ∃ woven, woven.IsMeasured body method profiler members first code ∧
      body.measure method profiler members = do
        woven.check
        return woven := by
  have placesWide : (body.withSlots (method.returnTypes ++ [profiler])).Places code :=
    places.congr rfl rfl
  obtain ⟨anchored, rest, rfl⟩ : ∃ anchored rest, code = (first, anchored) :: rest := by
    rw [first?, places.order, List.head?_map, Option.map_eq_some_iff] at start
    obtain ⟨⟨_, anchored⟩, head, rfl⟩ := start
    exact ⟨anchored, _, (List.cons_head?_tail head).symm⟩
  obtain ⟨woven, placesWoven, slots, clauses, added⟩ := addProfiler_of_places placesWide members
    (body.addedSlot method) (method.returnSlot? body)
  refine ⟨woven, ⟨places, start, returns, room, placesWoven, slots, clauses⟩, ?_⟩
  rw [measure_eq start, returns_eq places, returnIds_isEmpty_iff.mpr returns,
    if_neg Bool.false_ne_true, if_pos room, added]

private theorem accounts_of_addProfiler {wide : Body} {returns : List InstrId}
    {profilerSlot : Nat} {returnSlot : Option Nat}
    (added : wide.addProfiler returns first members profilerSlot returnSlot = .ok woven) :
    woven.Accounts wide [] ∧ woven.check = .ok () := by
  simp only [addProfiler, bind_eq_ok_iff, pure_eq_ok_iff] at added
  obtain ⟨started, inserts, routed, routes, stopped, pushesStop, placed, pushesExit, _, checked,
    rfl⟩ := added
  have created := (((Accounts.refl wide).insertAllBefore inserts).create (.loadSlot profilerSlot)).create
    (exitHead returnSlot)
  have stopPlaced := (created.routeReturns routes).push
    (List.mem_cons_of_mem _ (List.mem_singleton_self _)) pushesStop
  have different : (⟨(started.create (.loadSlot profilerSlot)).2.arena.size⟩ : InstrId) ≠
      ⟨started.arena.size⟩ := by
    simp [create]
  rw [List.erase_cons_tail (by simpa using different), List.erase_cons_head] at stopPlaced
  have exitPlaced := (stopPlaced.appendAll (stopCode members)).push (List.mem_singleton_self _)
    pushesExit
  rw [List.erase_cons_head] at exitPlaced
  exact ⟨exitPlaced.appendAll (exitTail returnSlot), checked⟩

/-- A body that could be measured was in order before, and what measuring made of it is accepted. -/
theorem isMeasured_of_measure (measured : body.measure method profiler members = .ok woven) :
    woven.check = .ok () ∧
      ∃ first code, woven.IsMeasured body method profiler members first code := by
  cases start : body.first? with
  | none =>
      rw [measure, start] at measured
      cases measured
  | some first =>
      have original := measured
      rw [measure_eq start] at measured
      split at measured
      next => cases measured
      next returns =>
        split at measured
        next room =>
          obtain ⟨accounts, checked⟩ := accounts_of_addProfiler measured
          obtain ⟨regions, wellFormed⟩ := check_eq_ok_iff.mp checked
          obtain ⟨created, nodup⟩ := accounts.ordered wellFormed.created wellFormed.nodup
          have places : body.Places body.instructions := places_instructions created nodup
          rw [returns_eq places, Bool.not_eq_true, returnIds_isEmpty_iff] at returns
          obtain ⟨same, isMeasured, comes⟩ : ∃ woven : Body,
              woven.IsMeasured body method profiler members first body.instructions ∧
                body.measure method profiler members = _ :=
            measure_of_places places start returns room
          rw [original, eq_comm, bind_eq_ok_iff] at comes
          obtain ⟨_, _, returned⟩ := comes
          cases returned
          exact ⟨checked, first, _, isMeasured⟩
        next => cases measured

end Body

/-! ## Places in the measured body -/

/-- Where an instruction of a body stands in the measured body. -/
def measurePlace (returnSlot : Option Nat) (code : List Placed) (position : Nat) : Nat :=
  5 + position + addedIn returnSlot (code.take position)

/-- What stands in place of an instruction. -/
def routedOne (exit : InstrId) (returnSlot : Option Nat) (fresh : Nat) (placed : Placed) :
    List Placed :=
  if isReturn placed then routedReturn exit returnSlot placed.1 fresh else [placed]

theorem addedIn_mono {shorter longer : List Placed} (sublist : shorter.Sublist longer) :
    addedIn returnSlot shorter ≤ addedIn returnSlot longer :=
  Nat.mul_le_mul_left _ sublist.countP_le

theorem strictMono_measurePlace (returnSlot : Option Nat) (code : List Placed) :
    StrictMono (measurePlace returnSlot code) := by
  apply strictMono_nat_of_lt_succ
  intro position
  have more : addedIn returnSlot (code.take position) ≤
      addedIn returnSlot (code.take (position + 1)) :=
    addedIn_mono (List.take_sublist_take_left (Nat.le_succ position))
  simp only [measurePlace]
  omega

section Places

variable {returnSlot : Option Nat} {code : List Placed} {position : Nat} {placed : Placed}

theorem measurePlace_succ (returnSlot : Option Nat) (found : code[position]? = some placed) :
    measurePlace returnSlot code (position + 1) =
      measurePlace returnSlot code position + 1 + addedIn returnSlot [placed] := by
  have more : addedIn returnSlot (code.take (position + 1)) =
      addedIn returnSlot (code.take position) + addedIn returnSlot [placed] := by
    rw [List.take_add_one, found, Option.toList_some, addedIn_append]
  simp only [measurePlace, more]
  omega

theorem measurePlace_succ_of_kept (found : code[position]? = some placed)
    (kept : isReturn placed = false) :
    measurePlace returnSlot code (position + 1) = measurePlace returnSlot code position + 1 := by
  rw [measurePlace_succ returnSlot found]
  simp [addedIn, kept]

theorem measurePlace_succ_of_isReturn (returnSlot : Option Nat)
    (found : code[position]? = some placed) (isRet : isReturn placed = true) :
    measurePlace returnSlot code (position + 1) =
      measurePlace returnSlot code position + 1 + perReturn returnSlot := by
  rw [measurePlace_succ returnSlot found]
  simp [addedIn, isRet]

/-- Behind a return of a value, an instruction stands behind the code in front of the body, the return
and the leave that was added for it. -/
example : measurePlace (some 0) [(⟨0⟩, ⟨.ret, .none⟩), (⟨1⟩, ⟨.nop, .none⟩)] 1 = 5 + 1 + 1 := rfl

/-- What stands in place of a return lies in the same moved ranges as the return. -/
theorem contains_shift_measurePlace (found : code[position]? = some placed)
    (isRet : isReturn placed = true) {offset : Nat} (inside : offset ≤ perReturn returnSlot)
    (range : Range) :
    (range.shift (measurePlace returnSlot code)).contains
        (measurePlace returnSlot code position + offset) = range.contains position := by
  have mono := strictMono_measurePlace returnSlot code
  have next := measurePlace_succ_of_isReturn returnSlot found isRet
  have starts : measurePlace returnSlot code range.start ≤
      measurePlace returnSlot code position + offset ↔ range.start ≤ position := by
    constructor
    · intro before
      have less : measurePlace returnSlot code range.start <
          measurePlace returnSlot code (position + 1) := by omega
      exact Nat.le_of_lt_succ (mono.lt_iff_lt.mp less)
    · intro before
      exact Nat.le_trans (mono.monotone before) (Nat.le_add_right _ _)
  have stops : measurePlace returnSlot code position + offset <
      measurePlace returnSlot code range.stop ↔ position < range.stop := by
    constructor
    · intro before
      exact mono.lt_iff_lt.mp (Nat.lt_of_le_of_lt (Nat.le_add_right _ _) before)
    · intro before
      have within : measurePlace returnSlot code (position + 1) ≤
          measurePlace returnSlot code range.stop := mono.monotone before
      omega
  simp only [Range.contains, Range.shift, starts, stops]

end Places

section MeasureCode

variable {size profilerSlot position : Nat} {members : ProfilerMembers} {placed : Placed}

/-- The code in place of an instruction stands from the instruction's place on. -/
theorem getElem?_measureCode (found : code[position]? = some placed) {offset : Nat}
    (inside : offset <
      (routedOne ⟨size + 6⟩ returnSlot (size + 7 + addedIn returnSlot (code.take position))
        placed).length) :
    (measureCode size members profilerSlot returnSlot code)[
        measurePlace returnSlot code position + offset]? =
      (routedOne ⟨size + 6⟩ returnSlot (size + 7 + addedIn returnSlot (code.take position))
        placed)[offset]? := by
  have bound := (List.getElem?_eq_some_iff.mp found).1
  have rest : (routed ⟨size + 6⟩ returnSlot (size + 7) code)[
      position + addedIn returnSlot (code.take position) + offset]? =
      (routedOne ⟨size + 6⟩ returnSlot (size + 7 + addedIn returnSlot (code.take position))
        placed)[offset]? := by
    rw [← List.getElem?_drop, drop_routed code position (Nat.le_of_lt bound),
      List.drop_eq_getElem_cons bound, (List.getElem?_eq_some_iff.mp found).2, routed]
    simp only [routedOne] at inside ⊢
    split_ifs at inside ⊢
    · exact List.getElem?_append_left inside
    · rw [List.length_singleton, Nat.lt_one_iff] at inside
      rw [inside]
      rfl
  have here := rest.trans (List.getElem?_eq_getElem inside)
  have inRouted := (List.getElem?_eq_some_iff.mp here).1
  have place : measurePlace returnSlot code position + offset =
      (numbered size (startCode members profilerSlot)).length +
        (position + addedIn returnSlot (code.take position) + offset) := by
    rw [length_numbered, measurePlace, Nat.add_assoc 5, Nat.add_assoc 5]
    rfl
  rw [measureCode, place, List.getElem?_append_left, List.getElem?_append_right (by simp),
    Nat.add_sub_cancel_left, rest]
  rw [List.length_append]
  exact Nat.add_lt_add_left inRouted _

theorem getElem?_measureCode_kept (found : code[position]? = some placed)
    (kept : isReturn placed = false) :
    (measureCode size members profilerSlot returnSlot code)[
      measurePlace returnSlot code position]? = some placed := by
  have one : routedOne ⟨size + 6⟩ returnSlot (size + 7 + addedIn returnSlot (code.take position))
      placed = [placed] := if_neg (by simp [kept])
  refine (getElem?_measureCode found (by rw [one]; exact Nat.one_pos)).trans ?_
  rw [one]
  rfl

/-- Where a value is returned, it is stored and the next instruction leaves for the exit. -/
theorem getElem?_measureCode_stored {slot : Nat} (found : code[position]? = some placed)
    (isRet : isReturn placed = true) :
    (measureCode size members profilerSlot (some slot) code)[
        measurePlace (some slot) code position]? = some (placed.1, .storeSlot slot) ∧
      (measureCode size members profilerSlot (some slot) code)[
        measurePlace (some slot) code position + 1]? =
          some (⟨size + 7 + addedIn (some slot) (code.take position)⟩, .leaveTo ⟨size + 6⟩) := by
  have one : routedOne ⟨size + 6⟩ (some slot) (size + 7 + addedIn (some slot) (code.take position))
      placed = [(placed.1, .storeSlot slot),
        (⟨size + 7 + addedIn (some slot) (code.take position)⟩, .leaveTo ⟨size + 6⟩)] :=
    if_pos isRet
  constructor
  · refine (getElem?_measureCode found (by rw [one]; exact Nat.two_pos)).trans ?_
    rw [one]
    rfl
  · refine (getElem?_measureCode found (by rw [one]; exact Nat.one_lt_two)).trans ?_
    rw [one]
    rfl

/-- Where nothing is returned, the instruction leaves for the exit. -/
theorem getElem?_measureCode_left (found : code[position]? = some placed)
    (isRet : isReturn placed = true) :
    (measureCode size members profilerSlot none code)[measurePlace none code position]? =
      some (placed.1, .leaveTo ⟨size + 6⟩) := by
  have one : routedOne ⟨size + 6⟩ none (size + 7 + addedIn none (code.take position)) placed =
      [(placed.1, .leaveTo ⟨size + 6⟩)] := if_pos isRet
  refine (getElem?_measureCode found (by rw [one]; exact Nat.one_pos)).trans ?_
  rw [one]
  rfl

/-- The id of an instruction stays at its place, whatever becomes of the instruction. -/
theorem getElem?_measureCode_id (found : code[position]? = some placed) :
    ∃ instruction, (measureCode size members profilerSlot returnSlot code)[
      measurePlace returnSlot code position]? = some (placed.1, instruction) := by
  cases isRet : isReturn placed with
  | false => exact ⟨_, getElem?_measureCode_kept found isRet⟩
  | true =>
      cases returnSlot with
      | some slot => exact ⟨_, (getElem?_measureCode_stored found isRet).1⟩
      | none => exact ⟨_, getElem?_measureCode_left found isRet⟩

/-- The added code stands behind. -/
theorem getElem?_measureCode_tail (offset : Nat) :
    (measureCode size members profilerSlot returnSlot code)[
        5 + code.length + addedIn returnSlot code + offset]? =
      (measureTail size (size + 7 + addedIn returnSlot code) members profilerSlot
        returnSlot)[offset]? := by
  have length : (numbered size (startCode members profilerSlot) ++
      routed ⟨size + 6⟩ returnSlot (size + 7) code).length =
        5 + code.length + addedIn returnSlot code := by
    rw [List.length_append, length_numbered, length_routed, ← Nat.add_assoc]
    rfl
  rw [measureCode, ← length, List.getElem?_append_right (Nat.le_add_right _ _),
    Nat.add_sub_cancel_left]

end MeasureCode

namespace Body

/-- The region of the new clause. -/
def measureRegion (body : Body) (returnSlot : Option Nat) (first : InstrId) (code : List Placed) :
    Region where
  clause := .finishing first ⟨body.arena.size + 5⟩ ⟨body.arena.size + 6⟩
  guarded := ⟨5, 5 + code.length + addedIn returnSlot code⟩
  handler := ⟨5 + code.length + addedIn returnSlot code,
    5 + code.length + addedIn returnSlot code + 3⟩

/-- The new clause protects the place of every instruction. -/
theorem guarded_measureRegion (body : Body) (returnSlot : Option Nat) (first : InstrId)
    (code : List Placed) :
    (body.measureRegion returnSlot first code).guarded =
      (⟨0, code.length⟩ : Range).shift (measurePlace returnSlot code) := by
  simp [measureRegion, Range.shift, measurePlace, addedIn]

/-- The regions of a measured body. -/
def measureRegions (body : Body) (returnSlot : Option Nat) (first : InstrId) (code : List Placed)
    (regions : List Region) : List Region :=
  regions.map (·.shift (measurePlace returnSlot code)) ++
    [body.measureRegion returnSlot first code]

namespace IsMeasured

variable {body woven : Body} {method : Method} {profiler : TypeExpr} {members : ProfilerMembers}
variable {first : InstrId} {code : List Placed} {position : Nat} {placed : Placed}

variable {regions : List Region}

theorem length_code (isMeasured : woven.IsMeasured body method profiler members first code) :
    code.length = body.length := by
  rw [length, isMeasured.original.order, List.length_map]

theorem surrounds (isMeasured : woven.IsMeasured body method profiler members first code) :
    woven.Surrounds (measurePlace (method.returnSlot? body) code)
      (body.measureRegion (method.returnSlot? body) first code) body where
  mono := strictMono_measurePlace _ _
  position := by
    intro id position located
    obtain ⟨instruction, found⟩ := isMeasured.original.position?_eq_some_iff.mp located
    obtain ⟨now, moved⟩ := getElem?_measureCode_id found
    exact isMeasured.places.position?_of_getElem? moved
  clauses := isMeasured.clauses
  placed := by
    have start : woven.position? first = some 5 := by
      have start := isMeasured.start
      rw [first?, isMeasured.original.order, List.head?_map, Option.map_eq_some_iff] at start
      obtain ⟨⟨_, instruction⟩, found, rfl⟩ := start
      rw [List.head?_eq_getElem?] at found
      obtain ⟨now, moved⟩ := getElem?_measureCode_id found
      exact isMeasured.places.position?_of_getElem? moved
    have stop := isMeasured.places.position?_of_getElem? (getElem?_measureCode_tail 0)
    have exit := isMeasured.places.position?_of_getElem? (getElem?_measureCode_tail 3)
    exact ⟨start, stop, stop, exit⟩
  guards := by
    intro position inside
    rw [guarded_measureRegion, Range.contains_shift (strictMono_measurePlace _ _), Range.contains,
      isMeasured.length_code]
    exact Bool.and_eq_true_iff.mpr ⟨rfl, decide_eq_true inside⟩
  follows := rfl
  handles := by simp [measureRegion]

private theorem mem_routed {exit : InstrId} {returnSlot : Option Nat} {fresh : Nat}
    {code : List Placed} (member : placed ∈ routed exit returnSlot fresh code) :
    placed ∈ code ∨ placed.2.target? = none ∨ placed.2 = .leaveTo exit := by
  induction code generalizing fresh with
  | nil => cases member
  | cons head rest ih =>
      rw [routed] at member
      split at member
      next =>
        rcases List.mem_append.mp member with here | later
        · cases returnSlot with
          | none =>
              rw [routedReturn, List.mem_singleton] at here
              rw [here]
              exact .inr (.inr rfl)
          | some slot =>
              simp only [routedReturn, List.mem_cons, List.not_mem_nil, or_false] at here
              rcases here with rfl | rfl
              · exact .inr (.inl rfl)
              · exact .inr (.inr rfl)
        · exact (ih later).imp_left (List.mem_cons_of_mem head)
      next =>
        rcases List.mem_cons.mp member with rfl | later
        · exact .inl List.mem_cons_self
        · exact (ih later).imp_left (List.mem_cons_of_mem head)

/-- Every target in a measured body is placed if every target in the body is. -/
theorem targets (isMeasured : woven.IsMeasured body method profiler members first code)
    (inOrder : ∀ placed ∈ code, ∀ target, placed.2.target? = some target → target ∈ body.order) :
    ∀ placed ∈ measureCode body.arena.size members (body.addedSlot method)
        (method.returnSlot? body) code,
      ∀ target, placed.2.target? = some target → target ∈ woven.order := by
  have surrounds := isMeasured.surrounds
  have exit : ⟨body.arena.size + 6⟩ ∈ woven.order :=
    mem_order_iff.mpr ⟨_, surrounds.placed.handlerEnd⟩
  have starts : ∀ instruction ∈ startCode members (body.addedSlot method),
      instruction.target? = none := by simp [startCode]
  have stops : ∀ instruction ∈ stopCode members, instruction.target? = none := by simp [stopCode]
  intro placed member target aims
  simp only [measureCode, measureTail, List.mem_append, List.mem_cons] at member
  rcases member with (start | body) | (rfl | stop) | rfl | exits
  · rw [starts _ (mem_of_mem_numbered start)] at aims
    cases aims
  · rcases mem_routed body with old | straight | leaves
    · exact surrounds.mem_order (inOrder placed old target aims)
    · rw [straight] at aims
      cases aims
    · rw [leaves] at aims
      cases aims
      exact exit
  · cases aims
  · rw [stops _ (mem_of_mem_numbered stop)] at aims
    cases aims
  · rw [target?_exitHead] at aims
    cases aims
  · rw [target?_of_mem_exitTail (mem_of_mem_numbered exits)] at aims
    cases aims

/-- A measured body returns somewhere. -/
theorem hasReturn (size profilerSlot : Nat) (members : ProfilerMembers) (returnSlot : Option Nat)
    (code : List Placed) :
    ∃ placed ∈ measureCode size members profilerSlot returnSlot code, placed.2.op = .ret := by
  obtain ⟨placed, member, isRet⟩ := ret_mem_exit (size + 7 + addedIn returnSlot code + 2)
    ⟨size + 6⟩ returnSlot
  exact ⟨placed, List.mem_append_right _ (List.mem_append_right _ member), isRet⟩

end IsMeasured

end Body

/-- A wrap that measures a body succeeds when the members are found and the body can be measured. -/
theorem Method.wrap_measure_eq_ok_iff {method woven : Method} {binder : Binder} {body : Body}
    {profiler : TypeExpr} (bodied : method.body = some body) :
    (method.wrap (.measure profiler) binder).1 = .ok woven ↔
      ∃ members, (binder.profilerMembers profiler).1 = .ok members ∧
        ∃ measured, body.measure method profiler members = .ok measured ∧
          woven = { method with body := some measured } := by
  simp only [wrap, bodied, Wrap.applyTo, map_eq_ok_iff]
  cases (binder.profilerMembers profiler).1 with
  | error error => simp [Except.bind]
  | ok members => simp [Except.bind, eq_comm (b := woven)]

end Splice
