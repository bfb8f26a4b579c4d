import Splice.Proofs.Weaving.Surround

/-!
# Guarded bodies

Guarding a body leaves its code where it is and adds the handler and the exit behind it.
-/

namespace Splice

/-- The whole handler. -/
def guardHandler (method : Method) (members : HandlerMembers) (exceptionSlot : Nat)
    (rethrow : Bool) : List Instruction :=
  .storeSlot exceptionSlot :: handlerCode method members exceptionSlot rethrow

theorem guardHandler_ne_nil (method : Method) (members : HandlerMembers) (exceptionSlot : Nat)
    (rethrow : Bool) : guardHandler method members exceptionSlot rethrow ≠ [] :=
  List.cons_ne_nil _ _

/-- The code that guarding adds. The exit is created before the instruction that leaves for it. -/
def guardCode (start : Nat) (handler : List Instruction) (returnSlot : Option Nat) : List Placed :=
  numbered start handler ++
    (⟨start + handler.length + 1⟩, .leaveTo ⟨start + handler.length⟩) ::
    (⟨start + handler.length⟩, Body.exitHead returnSlot) ::
    numbered (start + handler.length + 2) (Body.exitTail returnSlot)

theorem getElem?_guardCode_handler {start : Nat} {handler : List Instruction} {offset : Nat}
    {instruction : Instruction} (returnSlot : Option Nat)
    (found : handler[offset]? = some instruction) :
    (guardCode start handler returnSlot)[offset]? = some (⟨start + offset⟩, instruction) := by
  have inside : offset < (numbered start handler).length := by
    rw [length_numbered]
    exact (List.getElem?_eq_some_iff.mp found).1
  rw [guardCode, List.getElem?_append_left inside, getElem?_numbered, found, Option.map_some]

/-- The exit stands behind the instruction that leaves for it. -/
theorem getElem?_guardCode_exit {start : Nat} {handler : List Instruction}
    {returnSlot : Option Nat} (offset : Nat) :
    (guardCode start handler returnSlot)[handler.length + (offset + 1)]? =
      ((⟨start + handler.length⟩, Body.exitHead returnSlot) ::
        numbered (start + handler.length + 2) (Body.exitTail returnSlot))[offset]? := by
  rw [guardCode, List.getElem?_append_right (by simp), length_numbered, Nat.add_sub_cancel_left]
  rfl

namespace Body

variable {body woven : Body} {method : Method} {exception : TypeExpr} {members : HandlerMembers}
variable {rethrow : Bool} {first : InstrId} {code : List Placed}

/-- What guarding makes of a body that starts with `first` and places `code`. -/
structure IsGuarded (woven body : Body) (method : Method) (exception : TypeExpr)
    (handler : List Instruction) (first : InstrId) (code : List Placed) : Prop where
  original : body.Places code
  start : body.first? = some first
  room : body.addedSlot method < slotLimit
  places : woven.Places (code ++ guardCode body.arena.size handler (method.returnSlot? body))
  slots : woven.slots = body.slots ++ (method.returnTypes ++ [exception]).toArray
  clauses : woven.clauses = body.clauses ++
    [.guarding first ⟨body.arena.size⟩ ⟨body.arena.size + handler.length⟩ exception]

/-- Add the handler and the exit to a body that has its new slots already. -/
def addHandler (wide : Body) (first : InstrId) (exception : TypeExpr) (handler : List Instruction)
    (returnSlot : Option Nat) : Except Flaw Body := do
  let handlerStart : InstrId := ⟨wide.arena.size⟩
  let (exit, wide) := (wide.appendAll handler).create (exitHead returnSlot)
  let wide ← (wide.append (.leaveTo exit)).2.push exit
  let wide := ((wide.appendAll (exitTail returnSlot)).addClause
    (.guarding first handlerStart exit exception)).raiseHeader handlerDepth
  wide.check
  return wide

theorem guard_eq (start : body.first? = some first) :
    body.guard method exception members rethrow =
      if body.addedSlot method < slotLimit then
        (body.withSlots (method.returnTypes ++ [exception])).addHandler first exception
          (guardHandler method members (body.addedSlot method) rethrow) (method.returnSlot? body)
      else .error .tooManySlots := by
  simp only [guard]
  rw [start]
  exact addSlots_bind method body exception fun returnSlot exceptionSlot wide =>
    wide.addHandler first exception (guardHandler method members exceptionSlot rethrow) returnSlot

/-- Adding the handler to a body that places code comes down to the check of what it makes. -/
private theorem addHandler_of_places {wide : Body} (places : wide.Places code)
    (first : InstrId) (exception : TypeExpr) (handler : List Instruction)
    (returnSlot : Option Nat) :
    ∃ woven, woven.Places (code ++ guardCode wide.arena.size handler returnSlot) ∧
      woven.slots = wide.slots ∧
      woven.clauses = wide.clauses ++
        [.guarding first ⟨wide.arena.size⟩ ⟨wide.arena.size + handler.length⟩ exception] ∧
      wide.addHandler first exception handler returnSlot = do
        woven.check
        return woven := by
  obtain ⟨extendsHandler, placesHandler⟩ := places.appendAll handler
  have size : (wide.appendAll handler).arena.size = wide.arena.size + handler.length :=
    wide.size_appendAll handler
  have keeps := placesHandler.keeps_create (exitHead returnSlot)
  rw [size] at keeps
  have placesLeave := (placesHandler.create (exitHead returnSlot)).append
    (.leaveTo ⟨wide.arena.size + handler.length⟩)
  obtain ⟨placed, pushed, arena, _, slots, clauses, placesExit⟩ :=
    placesLeave.push (keeps.extends_ (extends_append _ _))
  obtain ⟨extendsTail, placesTail⟩ := placesExit.appendAll (exitTail returnSlot)
  refine ⟨((placed.appendAll (exitTail returnSlot)).addClause (.guarding first
    ⟨wide.arena.size⟩ ⟨wide.arena.size + handler.length⟩ exception)).raiseHeader handlerDepth,
    ?_, ?_, ?_, ?_⟩
  · have sizeCreated : ((wide.appendAll handler).create (exitHead returnSlot)).2.arena.size =
        wide.arena.size + handler.length + 1 := by
      simp [create, size]
    have sizePlaced : placed.arena.size = wide.arena.size + handler.length + 2 := by
      simp [arena, append, create, size]
    rw [sizeCreated, sizePlaced] at placesTail
    have shaped : (placed.appendAll (exitTail returnSlot)).Places
        (code ++ guardCode wide.arena.size handler returnSlot) := by
      simpa [guardCode] using placesTail
    exact shaped.congr rfl rfl
  · exact extendsTail.slots.trans (slots.trans extendsHandler.slots)
  · have kept := extendsTail.clauses.trans (clauses.trans extendsHandler.clauses)
    exact congrArg (· ++ _) kept
  · have exit : ((wide.appendAll handler).create (exitHead returnSlot)).1 =
        ⟨wide.arena.size + handler.length⟩ := congrArg InstrId.mk size
    rw [← exit] at pushed
    apply (congrArg (· >>= _) pushed).trans
    rw [size]
    rfl

/-- Guarding a body that places code comes down to the check of what it makes. -/
theorem guard_of_places (places : body.Places code) (start : body.first? = some first)
    (room : body.addedSlot method < slotLimit) :
    ∃ woven, woven.IsGuarded body method exception
        (guardHandler method members (body.addedSlot method) rethrow) first code ∧
      body.guard method exception members rethrow = do
        woven.check
        return woven := by
  have placesWide : (body.withSlots (method.returnTypes ++ [exception])).Places code :=
    places.congr rfl rfl
  obtain ⟨woven, placesWoven, slots, clauses, added⟩ := addHandler_of_places placesWide first
    exception (guardHandler method members (body.addedSlot method) rethrow)
    (method.returnSlot? body)
  refine ⟨woven, ⟨places, start, room, placesWoven, slots, clauses⟩, ?_⟩
  rw [guard_eq start, if_pos room, added]

private theorem accounts_of_addHandler {wide : Body} {handler : List Instruction}
    {returnSlot : Option Nat}
    (added : wide.addHandler first exception handler returnSlot = .ok woven) :
    woven.Accounts wide [] ∧ woven.check = .ok () := by
  simp only [addHandler, bind_eq_ok_iff, pure_eq_ok_iff] at added
  obtain ⟨placed, pushed, _, checked, rfl⟩ := added
  have appended := (((Accounts.refl wide).appendAll handler).create (exitHead returnSlot)).append
    (.leaveTo ⟨(wide.appendAll handler).arena.size⟩)
  have accounts := (appended.push (List.mem_singleton_self _) pushed).appendAll
    (exitTail returnSlot)
  rw [List.erase_cons_head] at accounts
  exact ⟨accounts, checked⟩

/-- A body that could be guarded was in order before, and what guarding made of it is accepted. -/
theorem isGuarded_of_guard
    (guarded : body.guard method exception members rethrow = .ok woven) :
    woven.check = .ok () ∧ ∃ first code, woven.IsGuarded body method exception
      (guardHandler method members (body.addedSlot method) rethrow) first code := by
  cases start : body.first? with
  | none =>
      rw [guard, start] at guarded
      cases guarded
  | some first =>
      have original := guarded
      rw [guard_eq start] at guarded
      split at guarded
      next room =>
        obtain ⟨accounts, checked⟩ := accounts_of_addHandler guarded
        obtain ⟨regions, wellFormed⟩ := check_eq_ok_iff.mp checked
        obtain ⟨created, nodup⟩ := accounts.ordered wellFormed.created wellFormed.nodup
        have places : body.Places body.instructions := places_instructions created nodup
        have shaped : ∃ woven : Body, woven.IsGuarded body method exception
            (guardHandler method members (body.addedSlot method) rethrow) first body.instructions ∧
            body.guard method exception members rethrow = _ := guard_of_places places start room
        obtain ⟨same, isGuarded, comes⟩ := shaped
        rw [original, eq_comm, bind_eq_ok_iff] at comes
        obtain ⟨_, _, returned⟩ := comes
        cases returned
        exact ⟨checked, first, _, isGuarded⟩
      next => cases guarded

/-! ## The additional region -/

/-- The region of the new clause. -/
def guardRegion (body : Body) (exception : TypeExpr) (handler : List Instruction)
    (first : InstrId) : Region where
  clause := .guarding first ⟨body.arena.size⟩ ⟨body.arena.size + handler.length⟩ exception
  guarded := ⟨0, body.length⟩
  handler := ⟨body.length, body.length + (handler.length + 1)⟩

/-- The regions of a guarded body. -/
def guardRegions (body : Body) (exception : TypeExpr) (handler : List Instruction)
    (first : InstrId) (regions : List Region) : List Region :=
  regions.map (·.shift id) ++ [body.guardRegion exception handler first]

namespace IsGuarded

variable {body woven : Body} {method : Method} {exception : TypeExpr} {first : InstrId}
variable {code : List Placed} {handler : List Instruction}

theorem length_code (isGuarded : woven.IsGuarded body method exception handler first code) :
    code.length = body.length := by
  rw [length, isGuarded.original.order, List.length_map]

theorem getElem?_code (isGuarded : woven.IsGuarded body method exception handler first code)
    {position : Nat} (inside : position < body.length) :
    (code ++ guardCode body.arena.size handler (method.returnSlot? body))[position]? =
      code[position]? := by
  rw [← isGuarded.length_code] at inside
  exact List.getElem?_append_left inside

/-- The added code follows the code of the body. -/
theorem getElem?_added (isGuarded : woven.IsGuarded body method exception handler first code)
    (position : Nat) :
    (code ++ guardCode body.arena.size handler (method.returnSlot? body))[body.length + position]? =
      (guardCode body.arena.size handler (method.returnSlot? body))[position]? := by
  rw [← isGuarded.length_code, List.getElem?_append_right (Nat.le_add_right _ _),
    Nat.add_sub_cancel_left]

theorem surrounds (isGuarded : woven.IsGuarded body method exception handler first code)
    (handles : handler ≠ []) :
    woven.Surrounds id (body.guardRegion exception handler first) body where
  mono := strictMono_id
  position := by
    intro target position located
    obtain ⟨instruction, found⟩ := isGuarded.original.position?_eq_some_iff.mp located
    exact isGuarded.places.position?_of_getElem?
      ((isGuarded.getElem?_code (position?_lt_length located)).trans found)
  clauses := isGuarded.clauses
  placed := by
    have start : woven.position? first = some 0 := by
      have head : code.head?.map (·.1) = some first := by
        have start := isGuarded.start
        rw [first?, isGuarded.original.order, List.head?_map] at start
        exact start
      obtain ⟨⟨_, instruction⟩, found, rfl⟩ := Option.map_eq_some_iff.mp head
      rw [List.head?_eq_getElem?] at found
      exact isGuarded.places.position?_of_getElem? (List.getElem?_append_left
        (List.getElem?_eq_some_iff.mp found).1 |>.trans found)
    have stop : woven.position? ⟨body.arena.size⟩ = some body.length := by
      obtain ⟨head, rest, rfl⟩ := List.exists_cons_of_ne_nil handles
      exact isGuarded.places.position?_of_getElem? (isGuarded.getElem?_added 0)
    have exit : woven.position? ⟨body.arena.size + handler.length⟩ =
        some (body.length + (handler.length + 1)) :=
      isGuarded.places.position?_of_getElem?
        ((isGuarded.getElem?_added _).trans (getElem?_guardCode_exit 0))
    exact ⟨start, stop, stop, exit⟩
  guards := by
    intro position inside
    simp only [guardRegion, Range.contains, id_eq, Nat.zero_le, decide_true, Bool.true_and]
    exact decide_eq_true inside
  follows := rfl
  handles := by simp [guardRegion]

/-- The routine of the guarded body fetches the code of the body from where it was. -/
theorem fetch?_code (isGuarded : woven.IsGuarded body method exception handler first code)
    {outer inner : Routine} (runsWoven : outer.body = woven) (runs : inner.body = body)
    {position : Nat} (inside : position < body.length) :
    outer.fetch? position = inner.fetch? position := by
  subst runsWoven runs
  rw [Routine.fetch?_eq_getElem? isGuarded.places, Routine.fetch?_eq_getElem? isGuarded.original,
    isGuarded.getElem?_code inside]

/-- The added code is fetched from behind the code of the body. -/
theorem fetch?_added (isGuarded : woven.IsGuarded body method exception handler first code)
    {outer : Routine} (runsWoven : outer.body = woven) (position : Nat) :
    outer.fetch? (body.length + position) =
      (guardCode body.arena.size handler (method.returnSlot? body))[position]? := by
  subst runsWoven
  rw [Routine.fetch?_eq_getElem? isGuarded.places, isGuarded.getElem?_added]

/-- Every target in a guarded body is placed if every target in the body and in the handler is. -/
theorem targets (isGuarded : woven.IsGuarded body method exception handler first code)
    (handles : handler ≠ [])
    (placed : ∀ placed ∈ code, ∀ target, placed.2.target? = some target → target ∈ body.order)
    (straight : ∀ instruction ∈ handler, instruction.target? = none) :
    ∀ placed ∈ code ++ guardCode body.arena.size handler (method.returnSlot? body),
      ∀ target, placed.2.target? = some target → target ∈ woven.order := by
  have surrounds := isGuarded.surrounds handles
  intro instruction member target aims
  simp only [guardCode, List.mem_append, List.mem_cons] at member
  rcases member with old | handles | rfl | rfl | exits
  · exact surrounds.mem_order (placed instruction old target aims)
  · rw [straight _ (mem_of_mem_numbered handles)] at aims
    cases aims
  · cases aims
    exact mem_order_iff.mpr ⟨_, surrounds.placed.handlerEnd⟩
  · rw [target?_exitHead] at aims
    cases aims
  · rw [target?_of_mem_exitTail (mem_of_mem_numbered exits)] at aims
    cases aims

/-- A guarded body returns somewhere. -/
theorem hasReturn (handler : List Instruction) (returnSlot : Option Nat) (start : Nat) :
    ∃ placed ∈ code ++ guardCode start handler returnSlot, placed.2.op = .ret := by
  obtain ⟨placed, member, isRet⟩ := ret_mem_exit (start + handler.length + 2)
    ⟨start + handler.length⟩ returnSlot
  refine ⟨placed, List.mem_append_right code (List.mem_append_right _ ?_), isRet⟩
  exact List.mem_cons_of_mem _ member

end IsGuarded

/-- The handler does not branch. -/
theorem target?_of_mem_guardHandler (method : Method) (members : HandlerMembers) (slot : Nat)
    (rethrow : Bool) : ∀ instruction ∈ guardHandler method members slot rethrow,
      instruction.target? = none := by
  have loads : method.loadInstance.target? = none := by
    simp only [Method.loadInstance]
    split <;> rfl
  cases rethrow <;> simp [guardHandler, handlerCode, loads]

end Body

/-- A wrap that guards a body succeeds when the members are found and the body can be guarded. -/
theorem Method.wrap_guard_eq_ok_iff {method woven : Method} {binder : Binder} {body : Body}
    {exception handler : TypeExpr} {rethrow : Bool} (bodied : method.body = some body) :
    (method.wrap (.guard exception handler rethrow) binder).1 = .ok woven ↔
      ∃ members, (binder.handlerMembers handler).1 = .ok members ∧
        ∃ guarded, body.guard method exception members rethrow = .ok guarded ∧
          woven = { method with body := some guarded } := by
  simp only [wrap, bodied, Wrap.applyTo, map_eq_ok_iff]
  cases (binder.handlerMembers handler).1 with
  | error error => simp [Except.bind]
  | ok members => simp [Except.bind, eq_comm (b := woven)]

end Splice
