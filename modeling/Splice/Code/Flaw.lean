import Splice.Code.Instruction

/-!
# Flaws of a body

Why an edit of a body, the assembly of a body or its check is refused.
-/

namespace Splice

inductive Flaw where
  /-- An edit names an instruction that was never created. -/
  | missing (id : InstrId)
  | alreadyPlaced (id : InstrId)
  | anchorNotPlaced (anchor : InstrId)
  | tooManySlots
  /-- The order names an instruction that was never created. -/
  | missingInOrder (id : InstrId)
  | placedTwice (id : InstrId)
  | unplacedTarget (op : Op) (id target : InstrId)
  | unplacedBoundary (clause : Nat) (boundary : InstrId)
  | invertedBoundaries (clause : Nat)
  | coversItself (clause : Nat)
  | partialOverlap (first second : Nat)
  | danglingLabel (label : String)
  | undefinedLabel (label : String)
  | emptyBody (method : String)
  | noReturn (method : String)
  deriving DecidableEq

namespace Flaw

def message : Flaw → String
  | missing id => s!"Instruction {id.text} does not exist"
  | alreadyPlaced id => s!"Instruction {id.text} is already placed"
  | anchorNotPlaced anchor => s!"Anchor {anchor.text} is not placed in this body"
  | tooManySlots => "Too many local variables"
  | missingInOrder id => s!"Placed instruction {id.text} does not exist"
  | placedTwice id => s!"Instruction {id.text} is placed twice"
  | unplacedTarget op id target =>
    s!"{op.mnemonic} at {id.text} targets unplaced instruction {target.text}"
  | unplacedBoundary clause boundary =>
    s!"Exception handler {clause} references unplaced instruction {boundary.text}"
  | invertedBoundaries clause => s!"Exception handler {clause} has inverted boundaries"
  | coversItself clause => s!"Exception handler {clause} overlaps its own protected range"
  | partialOverlap first second => s!"Exception handlers {first} and {second} partially overlap"
  | danglingLabel label => s!"Label '{label}' is not followed by an instruction"
  | undefinedLabel label => s!"Label '{label}' is not defined"
  | emptyBody method => s!"{method} has an empty body"
  | noReturn method =>
    s!"{method} has no return instruction to route through the profiler"

end Flaw

end Splice
