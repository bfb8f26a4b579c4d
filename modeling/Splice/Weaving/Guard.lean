import Splice.Code.Check
import Splice.Weaving.Members

/-!
# Guarding a body

A guarded body reports the exceptions that reach its end to a handler.

The whole body becomes the protected range of a new catch clause, the last of the table. The catch
handler stores the exception, constructs the handler object and passes it the exception, the
instance and the running method. It then either throws the exception again or leaves for the new
end of the body, where the method returns the default of its return type.
-/

namespace Splice

namespace Method

/-- A slot for the value that the method returns, if it returns one. -/
def addReturnSlot (method : Method) (body : Body) : Except Flaw (Option Nat × Body) :=
  if method.isVoid then .ok (none, body)
  else do
    let (slot, body) ← body.addSlot method.returns
    return (some slot, body)

/-- Load the instance that the method runs on, or null in a static method. -/
def loadInstance (method : Method) : Instruction :=
  if method.isStatic then ⟨.ldnull, .none⟩ else .loadArgument 0

end Method

namespace Body

/-- The first instruction of the code that returns the value of a slot. -/
def exitHead : Option Nat → Instruction
  | some slot => .loadSlot slot
  | none => ⟨.ret, .none⟩

/-- The rest of the code that returns the value of a slot. -/
def exitTail : Option Nat → List Instruction
  | some _ => [⟨.ret, .none⟩]
  | none => []

/-- Raise the declared depth of the evaluation stack to what the added code needs, and have the
added slots initialized. -/
def raiseHeader (body : Body) (stackDepth : Nat) : Body :=
  { body with maxStack := max body.maxStack stackDepth, initLocals := true }

end Body

/-- How deep the evaluation stack gets in a handler. -/
def handlerDepth : Nat := 4

/-- The code of the catch handler, after the exception has been stored in its slot. -/
def handlerCode (method : Method) (members : HandlerMembers) (exceptionSlot : Nat)
    (rethrow : Bool) : List Instruction :=
  [.invoke .newobj members.construct, .loadSlot exceptionSlot, method.loadInstance,
    .invoke .call members.currentMethod, .invoke .callvirt members.handle] ++
    if rethrow then [⟨.rethrow, .none⟩] else []

namespace Body

/-- Guard a body of the method against a kind of exception. -/
def guard (body : Body) (method : Method) (exception : TypeExpr) (members : HandlerMembers)
    (rethrow : Bool) : Except Flaw Body := do
  match body.first? with
  | none => .error (.emptyBody method.name)
  | some first =>
    let (returnSlot, body) ← method.addReturnSlot body
    let (exceptionSlot, body) ← body.addSlot exception
    let (handlerStart, body) := body.append (.storeSlot exceptionSlot)
    let body := body.appendAll (handlerCode method members exceptionSlot rethrow)
    let (exit, body) := body.create (exitHead returnSlot)
    let (_, body) := body.append (.leaveTo exit)
    let body ← body.push exit
    let body := body.appendAll (exitTail returnSlot)
    let body := body.addClause (.guarding first handlerStart exit exception)
    let body := body.raiseHeader handlerDepth
    body.check
    return body

end Body

end Splice
