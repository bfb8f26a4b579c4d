import Splice.Emulation.Value
import Splice.Code.Instruction
import Splice.Code.Description

/-!
# Faults

Why an emulation ends without a completion. A fault is not an exception of the emulated body, and no
handler sees it.
-/

namespace Splice

inductive Fault where
  | noBody (method : String)
  | ranPast (method : String)
  | notPlaced (id : InstrId)
  | missing (id : InstrId)
  | missingArgument (index : Nat)
  | missingSlot (index : Nat)
  | stackUnderflow (position : Nat)
  | undefinedFor (op : Op) (left right : Value)
  | noObject (constructor : MemberRef)
  | throwsNull (id : InstrId)
  | rethrowsOutside (id : InstrId)
  | endsFinallyOutside (position : Nat)
  | badOperand (id : InstrId) (op : Op) (operand : Operand)
  /-- A fault of the host's own. -/
  | reported (text : String)
  | stepLimit (limit : Nat)
  deriving DecidableEq

namespace Fault

/-- What went wrong, for every fault but a spent budget. -/
def detail : Fault → String
  | noBody method => s!"{method} has no body"
  | ranPast method => s!"{method} ran past its last instruction"
  | notPlaced id => s!"{id.text} is not placed"
  | missing id => s!"{id.text} does not exist"
  | missingArgument index => s!"argument {index} does not exist"
  | missingSlot index => s!"local {index} does not exist"
  | stackUnderflow position => s!"stack underflow at {position}"
  | undefinedFor op left right =>
    s!"{op.mnemonic} is undefined for {left.text} and {right.text}"
  | noObject constructor => s!"{constructor.text} produced no object"
  | throwsNull id => s!"{id.text} throws null"
  | rethrowsOutside id => s!"{id.text} rethrows outside a catch handler"
  | endsFinallyOutside position => s!"endfinally at {position} outside a finally handler"
  | badOperand id op operand =>
    s!"{id.text}: {op.mnemonic} cannot take operand {operand.description}"
  | reported text => text
  | stepLimit _ => ""

def message : Fault → String
  | stepLimit limit => s!"Emulation exceeded {limit} steps"
  | fault => "Emulation failed: " ++ fault.detail

end Fault

end Splice
