import Splice.Code.Clause
import Splice.Code.Flaw

/-!
# Bodies

A body keeps its instructions in an arena that only grows, and their order as a list of ids. Branches
and clauses name instructions by id, so splicing code in changes the order and nothing that refers
to an instruction.

Every edit returns a new body. An edit that is refused therefore leaves its body as it was.
-/

namespace Splice

structure Body where
  arena : Array Instruction
  order : List InstrId
  /-- The type of each variable slot, by index. -/
  slots : Array TypeExpr
  clauses : List Clause
  maxStack : Nat
  initLocals : Bool
  deriving DecidableEq, Inhabited

namespace Body

def empty : Body := ⟨#[], [], #[], [], 8, true⟩

/-- How many variable slots an instruction can address. -/
def slotLimit : Nat := 65536

def get? (body : Body) (id : InstrId) : Option Instruction :=
  body.arena[id.index]?

def position? (body : Body) (id : InstrId) : Option Nat :=
  body.order.idxOf? id

def first? (body : Body) : Option InstrId := body.order.head?

def last? (body : Body) : Option InstrId := body.order.getLast?

def length (body : Body) : Nat := body.order.length

/-- The placed instructions in order. -/
def instructions (body : Body) : List (InstrId × Instruction) :=
  body.order.filterMap fun id => (body.get? id).map (id, ·)

/-- The placed return instructions in order. -/
def returns (body : Body) : List InstrId :=
  (body.instructions.filter (·.2.op == .ret)).map (·.1)

/-- Add an instruction to the arena without placing it. -/
def create (body : Body) (instruction : Instruction) : InstrId × Body :=
  (⟨body.arena.size⟩, { body with arena := body.arena.push instruction })

/-- Place an instruction of the arena at the end. -/
def push (body : Body) (id : InstrId) : Except Flaw Body :=
  if body.arena.size ≤ id.index then .error (.missing id)
  else if id ∈ body.order then .error (.alreadyPlaced id)
  else .ok { body with order := body.order ++ [id] }

/-- Create an instruction and place it at the end. -/
def append (body : Body) (instruction : Instruction) : InstrId × Body :=
  let (id, body) := body.create instruction
  (id, { body with order := body.order ++ [id] })

def appendAll (body : Body) (instructions : List Instruction) : Body :=
  instructions.foldl (fun body instruction => (body.append instruction).2) body

/-- Create an instruction and place it at a position of the order. -/
def insertAt (body : Body) (position : Nat) (instruction : Instruction) : InstrId × Body :=
  let (id, body) := body.create instruction
  (id, { body with order := body.order.insertIdx position id })

def insertBefore (body : Body) (anchor : InstrId) (instruction : Instruction) :
    Except Flaw (InstrId × Body) :=
  match body.position? anchor with
  | some position => .ok (body.insertAt position instruction)
  | none => .error (.anchorNotPlaced anchor)

def insertAfter (body : Body) (anchor : InstrId) (instruction : Instruction) :
    Except Flaw (InstrId × Body) :=
  match body.position? anchor with
  | some position => .ok (body.insertAt (position + 1) instruction)
  | none => .error (.anchorNotPlaced anchor)

/-- Change an instruction in place. All that named the old one names the new one. -/
def replace (body : Body) (id : InstrId) (instruction : Instruction) : Except Flaw Body :=
  if id.index < body.arena.size then
    .ok { body with arena := body.arena.setIfInBounds id.index instruction }
  else .error (.missing id)

/-- Add a variable slot and give its index. -/
def addSlot (body : Body) (type : TypeExpr) : Except Flaw (Nat × Body) :=
  if body.slots.size < slotLimit then
    .ok (body.slots.size, { body with slots := body.slots.push type })
  else .error .tooManySlots

def addClause (body : Body) (clause : Clause) : Body :=
  { body with clauses := body.clauses ++ [clause] }

end Body

end Splice
