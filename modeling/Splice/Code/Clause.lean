import Splice.Code.Instruction

/-!
# Exception clauses

A clause protects one range of a body with a handler that stands in another. Both ranges include
their first instruction and exclude their last.
-/

namespace Splice

/-- One entry of a body's exception table. The flags are kept as the file format stores them: zero
for a catch clause, bit 0 for a filter, bit 1 for a finally clause and bit 2 for a fault clause. -/
structure Clause where
  flags : UInt16
  tryStart : InstrId
  tryEnd : InstrId
  handlerStart : InstrId
  handlerEnd : InstrId
  catchType : Option TypeExpr
  deriving DecidableEq, Inhabited

namespace Clause

def finallyFlag : UInt16 := 2

/-- A catch clause whose handler follows the protected range. -/
def guarding (tryStart handlerStart handlerEnd : InstrId) (exception : TypeExpr) : Clause :=
  ⟨0, tryStart, handlerStart, handlerStart, handlerEnd, some exception⟩

/-- A finally clause whose handler follows the protected range. -/
def finishing (tryStart handlerStart handlerEnd : InstrId) : Clause :=
  ⟨finallyFlag, tryStart, handlerStart, handlerStart, handlerEnd, none⟩

def isCatch (clause : Clause) : Bool :=
  clause.flags == 0

def isFinally (clause : Clause) : Bool :=
  clause.flags &&& finallyFlag != 0

/-- The four instructions that bound the two ranges. -/
def boundaries (clause : Clause) : List InstrId :=
  [clause.tryStart, clause.tryEnd, clause.handlerStart, clause.handlerEnd]

end Clause

end Splice
