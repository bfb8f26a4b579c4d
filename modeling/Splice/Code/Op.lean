/-!
# Operations

The instruction set that bodies are written in, and how each operation moves control.
-/

namespace Splice

inductive Op where
  | nop | ldarg | ldloc | stloc | ldnull | ldcI4 | ldstr | dup | pop
  | add | sub | mul | ceq | clt | cgt
  | br | brtrue | brfalse
  | call | callvirt | newobj
  | ret | throw | rethrow | leave | endfinally
  deriving DecidableEq, Inhabited

/-- How control leaves an instruction. -/
inductive Flow where
  | sequential | conditionalBranch | unconditionalBranch | call | return | throw | endFinally | leave
  deriving DecidableEq

namespace Op

/-- Every operation, in the order of its declaration. -/
def all : List Op :=
  [nop, ldarg, ldloc, stloc, ldnull, ldcI4, ldstr, dup, pop, add, sub, mul, ceq, clt, cgt,
    br, brtrue, brfalse, call, callvirt, newobj, ret, throw, rethrow, leave, endfinally]

def mnemonic : Op → String
  | nop => "nop"
  | ldarg => "ldarg"
  | ldloc => "ldloc"
  | stloc => "stloc"
  | ldnull => "ldnull"
  | ldcI4 => "ldc.i4"
  | ldstr => "ldstr"
  | dup => "dup"
  | pop => "pop"
  | add => "add"
  | sub => "sub"
  | mul => "mul"
  | ceq => "ceq"
  | clt => "clt"
  | cgt => "cgt"
  | br => "br"
  | brtrue => "brtrue"
  | brfalse => "brfalse"
  | call => "call"
  | callvirt => "callvirt"
  | newobj => "newobj"
  | ret => "ret"
  | throw => "throw"
  | rethrow => "rethrow"
  | leave => "leave"
  | endfinally => "endfinally"

def ofMnemonic? (text : String) : Option Op :=
  all.find? (·.mnemonic == text)

def flow : Op → Flow
  | br => .unconditionalBranch
  | brtrue | brfalse => .conditionalBranch
  | call | callvirt | newobj => .call
  | ret => .return
  | throw | rethrow => .throw
  | endfinally => .endFinally
  | leave => .leave
  | _ => .sequential

end Op

namespace Flow

def text : Flow → String
  | .sequential => "Sequential"
  | .conditionalBranch => "ConditionalBranch"
  | .unconditionalBranch => "UnconditionalBranch"
  | .call => "Call"
  | .return => "Return"
  | .throw => "Throw"
  | .endFinally => "EndFinally"
  | .leave => "Leave"

def isBranch : Flow → Bool
  | conditionalBranch | unconditionalBranch => true
  | _ => false

/-- Whether the flow may end a straight run of instructions. -/
def isTerminal : Flow → Bool
  | sequential | call => false
  | _ => true

end Flow

end Splice
