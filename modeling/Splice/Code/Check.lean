import Splice.Code.Body
import Splice.Code.Range

/-!
# Checking a body

A body is accepted when its order places existing instructions once each, every branch target is
placed, every clause has two ranges that are not inverted and do not meet, and the ranges of
different clauses nest. The first flaw in that order is reported.
-/

namespace Splice.Body

def checkOrder (body : Body) : Except Flaw Unit :=
  body.order.zipIdx.forM fun (id, position) =>
    if body.arena.size ≤ id.index then .error (.missingInOrder id)
    else if id ∈ body.order.take position then .error (.placedTwice id)
    else .ok ()

def checkTargets (body : Body) : Except Flaw Unit :=
  body.instructions.forM fun (id, instruction) =>
    match instruction.target? with
    | some target =>
      if target ∈ body.order then .ok () else .error (.unplacedTarget instruction.op id target)
    | none => .ok ()

/-- The position of a boundary of the clause at `index`. -/
def boundary (body : Body) (index : Nat) (id : InstrId) : Except Flaw Nat :=
  match body.position? id with
  | some position => .ok position
  | none => .error (.unplacedBoundary index id)

/-- The protected range and the handler of a clause. -/
def clauseRanges (body : Body) (index : Nat) (clause : Clause) : Except Flaw (Range × Range) := do
  let tryStart ← body.boundary index clause.tryStart
  let tryEnd ← body.boundary index clause.tryEnd
  let handlerStart ← body.boundary index clause.handlerStart
  let handlerEnd ← body.boundary index clause.handlerEnd
  let guarded : Range := ⟨tryStart, tryEnd⟩
  let handler : Range := ⟨handlerStart, handlerEnd⟩
  if tryEnd ≤ tryStart || handlerEnd ≤ handlerStart then .error (.invertedBoundaries index)
  else if !guarded.isDisjoint handler then .error (.coversItself index)
  else .ok (guarded, handler)

/-- A range together with the index of the clause that it belongs to. -/
abbrev OwnedRange := Nat × Range

def ownedRanges (body : Body) : Except Flaw (List OwnedRange) := do
  let ranges ← body.clauses.zipIdx.mapM fun (clause, index) => do
    let (guarded, handler) ← body.clauseRanges index clause
    return [(index, guarded), (index, handler)]
  return ranges.flatten

/-- Compare every range with those after it. -/
def checkNesting : List OwnedRange → Except Flaw Unit
  | [] => .ok ()
  | (owner, range) :: rest => do
    rest.forM fun (other, otherRange) =>
      if owner == other || range.nests otherRange then .ok ()
      else .error (.partialOverlap owner other)
    checkNesting rest

/-- Accept the body or report its first flaw. -/
def check (body : Body) : Except Flaw Unit := do
  body.checkOrder
  body.checkTargets
  checkNesting (← body.ownedRanges)

end Splice.Body
