import Splice.Code.Check

/-!
# Listings

A listing describes a body with labels in place of ids. A label stands in front of an instruction
and names it; branches and clauses may use a label before it is bound.

Assembly takes two passes. Reading the statements binds every label to the position of the
instruction that follows it. Since instructions are created in the order of the listing, that
position is also the id of the instruction, and the second pass puts ids in place of labels.
-/

namespace Splice

inductive Statement where
  | maxStack (depth : Nat)
  | initLocals (init : Bool)
  | slot (type : TypeExpr)
  | label (name : String)
  | emit (instruction : Instruction)
  | branch (op : Op) (label : String)
  | guard (tryStart handlerStart handlerEnd : String) (exception : TypeExpr)
  | finish (tryStart handlerStart handlerEnd : String)

/-- An instruction whose target may still be a label. -/
inductive Line where
  | plain (instruction : Instruction)
  | branch (op : Op) (label : String)

/-- A clause between labels. Its handler follows the protected range, and it is a finally clause
when it has no exception type. -/
structure LabelledClause where
  tryStart : String
  handlerStart : String
  handlerEnd : String
  catchType : Option TypeExpr

/-- What has been read of a listing. -/
structure Listing where
  maxStack : Option Nat := none
  initLocals : Bool := true
  slots : Array TypeExpr := #[]
  lines : Array Line := #[]
  /-- The position that each label names, the last binding first. -/
  labels : List (String × Nat) := []
  /-- Labels that no instruction has followed yet. -/
  pending : List String := []
  clauses : Array LabelledClause := #[]

namespace Listing

def addLine (listing : Listing) (line : Line) : Listing :=
  let position := listing.lines.size
  { listing with
    lines := listing.lines.push line
    labels := listing.pending.map (·, position) ++ listing.labels
    pending := [] }

def add (listing : Listing) : Statement → Listing
  | .maxStack depth => { listing with maxStack := some depth }
  | .initLocals init => { listing with initLocals := init }
  | .slot type => { listing with slots := listing.slots.push type }
  | .label name => { listing with pending := listing.pending ++ [name] }
  | .emit instruction => listing.addLine (.plain instruction)
  | .branch op label => listing.addLine (.branch op label)
  | .guard tryStart handlerStart handlerEnd exception =>
    { listing with
      clauses := listing.clauses.push ⟨tryStart, handlerStart, handlerEnd, some exception⟩ }
  | .finish tryStart handlerStart handlerEnd =>
    { listing with clauses := listing.clauses.push ⟨tryStart, handlerStart, handlerEnd, none⟩ }

def ofStatements (statements : List Statement) : Listing :=
  statements.foldl add {}

/-- The instruction that a label names. -/
def target (listing : Listing) (label : String) : Except Flaw InstrId :=
  match listing.labels.lookup label with
  | some position => .ok ⟨position⟩
  | none => .error (.undefinedLabel label)

def instruction (listing : Listing) : Line → Except Flaw Instruction
  | .plain instruction => .ok instruction
  | .branch op label => do return ⟨op, .target (← listing.target label)⟩

def clause (listing : Listing) (labelled : LabelledClause) : Except Flaw Clause := do
  let tryStart ← listing.target labelled.tryStart
  let handlerStart ← listing.target labelled.handlerStart
  let handlerEnd ← listing.target labelled.handlerEnd
  match labelled.catchType with
  | some exception => return .guarding tryStart handlerStart handlerEnd exception
  | none => return .finishing tryStart handlerStart handlerEnd

/-- The body that the listing describes. -/
def assemble (listing : Listing) : Except Flaw Body := do
  match listing.pending with
  | label :: _ => .error (.danglingLabel label)
  | [] =>
    if Body.slotLimit < listing.slots.size then .error .tooManySlots
    else
      let instructions ← listing.lines.toList.mapM listing.instruction
      let clauses ← listing.clauses.toList.mapM listing.clause
      let body : Body :=
        { arena := instructions.toArray
          order := (List.range instructions.length).map InstrId.mk
          slots := listing.slots
          clauses := clauses
          maxStack := listing.maxStack.getD Body.empty.maxStack
          initLocals := listing.initLocals }
      body.check
      return body

end Listing

/-- Assemble the body that the statements list. -/
def assemble (statements : List Statement) : Except Flaw Body :=
  (Listing.ofStatements statements).assemble

end Splice
