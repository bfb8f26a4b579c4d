import Splice.Code.Op
import Splice.Types.TypeExpr

/-!
# Instructions

An instruction is an operation with at most one operand. Branch targets are ids of instructions, so
that code can be inserted around a target without changing the branches to it.
-/

namespace Splice

/-- Names an instruction of a body: its slot in the body's arena. -/
structure InstrId where
  index : Nat
  deriving DecidableEq, Inhabited

namespace InstrId

/-- Ids are written with at least four digits. -/
def text (id : InstrId) : String :=
  let digits := toString id.index
  "IL_" ++ String.ofList (List.replicate (4 - digits.length) '0') ++ digits

end InstrId

inductive Operand where
  | none
  | int32 (value : Int32)
  | string (value : String)
  | argument (index : Nat)
  | slot (index : Nat)
  | target (id : InstrId)
  | member (member : MemberRef)
  | type (expr : TypeExpr)
  deriving DecidableEq, Inhabited

structure Instruction where
  op : Op
  operand : Operand := .none
  deriving DecidableEq, Inhabited

namespace Instruction

def loadArgument (index : Nat) : Instruction := ⟨.ldarg, .argument index⟩

def loadSlot (index : Nat) : Instruction := ⟨.ldloc, .slot index⟩

def storeSlot (index : Nat) : Instruction := ⟨.stloc, .slot index⟩

def constant (value : Int32) : Instruction := ⟨.ldcI4, .int32 value⟩

def leaveTo (target : InstrId) : Instruction := ⟨.leave, .target target⟩

/-- Invoke a member with one of the calling operations. -/
def invoke (op : Op) (member : MemberRef) : Instruction := ⟨op, .member member⟩

/-- The instruction that the operand names, whatever the operation does with it. -/
def target? (instruction : Instruction) : Option InstrId :=
  match instruction.operand with
  | .target id => some id
  | _ => none

def isBranch (instruction : Instruction) : Bool :=
  instruction.op.flow.isBranch

def isTerminal (instruction : Instruction) : Bool :=
  instruction.op.flow.isTerminal

/-- The mnemonic, then the operand. A string operand stands between quotes as it is. -/
def text (instruction : Instruction) : String :=
  let mnemonic := instruction.op.mnemonic
  match instruction.operand with
  | .none => mnemonic
  | .int32 value => mnemonic ++ " " ++ toString value.toInt
  | .string value => mnemonic ++ " \"" ++ value ++ "\""
  | .argument index => mnemonic ++ " A_" ++ toString index
  | .slot index => mnemonic ++ " V_" ++ toString index
  | .target id => mnemonic ++ " " ++ id.text
  | .member member => mnemonic ++ " " ++ member.text
  | .type expr => mnemonic ++ " " ++ expr.text

end Instruction

end Splice
