import Splice.Weaving.Guard

/-!
# Measuring a body

A measured body starts a profiler when it is entered and stops it when it is left in any way.

The code that constructs and starts the profiler is put in front of the body. The body becomes the
protected range of a new finally clause whose handler stops the profiler, and every return in it
leaves for the new end of the body, where the method returns. The instruction that replaces a return
takes over its id, so that branches to the return still lead there.
-/

namespace Splice

/-- How deep the evaluation stack gets in the code that starts and stops the profiler. -/
def measureDepth : Nat := 2

/-- The code that constructs, stores and starts the profiler. -/
def startCode (members : ProfilerMembers) (profilerSlot : Nat) : List Instruction :=
  [.invoke .call members.currentMethod, .invoke .newobj members.construct,
    .storeSlot profilerSlot, .loadSlot profilerSlot, .invoke .callvirt members.start]

/-- The code that stops the profiler, after it has been loaded. -/
def stopCode (members : ProfilerMembers) : List Instruction :=
  [.invoke .callvirt members.stop, ⟨.endfinally, .none⟩]

namespace Body

/-- Insert instructions in front of an anchor, in their order. -/
def insertAllBefore (body : Body) (anchor : InstrId) (instructions : List Instruction) :
    Except Flaw Body :=
  instructions.foldlM (fun body instruction => return (← body.insertBefore anchor instruction).2)
    body

/-- Make a return leave for the exit, by way of the slot for the value it returns. -/
def routeReturn (body : Body) (exit : InstrId) (returnSlot : Option Nat) (id : InstrId) :
    Except Flaw Body :=
  match returnSlot with
  | some slot => do
    let body ← body.replace id (.storeSlot slot)
    return (← body.insertAfter id (.leaveTo exit)).2
  | none => body.replace id (.leaveTo exit)

/-- Measure a body of the method with a profiler of the given type. -/
def measure (body : Body) (method : Method) (profiler : TypeExpr) (members : ProfilerMembers) :
    Except Flaw Body := do
  match body.first? with
  | none => .error (.emptyBody method.name)
  | some first =>
    let returns := body.returns
    if returns.isEmpty then .error (.noReturn method.name)
    else
      let (returnSlot, body) ← method.addReturnSlot body
      let (profilerSlot, body) ← body.addSlot profiler
      let body ← body.insertAllBefore first (startCode members profilerSlot)
      let (finallyStart, body) := body.create (.loadSlot profilerSlot)
      let (exit, body) := body.create (exitHead returnSlot)
      let body ← returns.foldlM (routeReturn · exit returnSlot) body
      let body ← body.push finallyStart
      let body := body.appendAll (stopCode members)
      let body ← body.push exit
      let body := body.appendAll (exitTail returnSlot)
      let body := body.addClause (.finishing first finallyStart exit)
      let body := body.raiseHeader measureDepth
      body.check
      return body

end Body

end Splice
