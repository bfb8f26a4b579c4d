import Splice.Binding.Binder

/-!
# Members that woven code calls

Woven code constructs a handler or a profiler and calls it. The members that it needs are found
before a body is touched: constructors on the class itself, the other members on the class or the
nearest base that has a suitable one.
-/

namespace Splice

/-- What guarded code calls when an exception reaches its handler. -/
structure HandlerMembers where
  construct : MemberRef
  handle : MemberRef
  currentMethod : MemberRef

/-- What measured code calls. -/
structure ProfilerMembers where
  construct : MemberRef
  start : MemberRef
  stop : MemberRef
  currentMethod : MemberRef

def methodBaseName : String := "System.Reflection.MethodBase"

def currentMethodName : String := "GetCurrentMethod"

def handleName : String := "Handle"

def startName : String := "Start"

def stopName : String := "Stop"

namespace Descriptor

def missing {α : Type} (type : Descriptor) (member : String) : Except Error α :=
  .error (.missingMember type.fullName member)

/-- The member as a reference, or the error that it is missing. -/
def referTo (type : Descriptor) (description : String) : Option Member → Except Error MemberRef
  | some member => .ok (type.memberRef member)
  | none => type.missing description

/-- A void instance method `Handle` that takes the exception, the instance and the method. -/
def handleMember? (type : Descriptor) : Option Member :=
  (type.lineage.flatMap (·.membersNamed handleName)).find? fun member =>
    member.kind == .method && !member.isStatic && member.parameters.length == 3 && member.isVoid

/-- A void instance member without parameters. A class whose first such member is not void has
none. -/
def hook? (type : Descriptor) (name : String) : Option Member :=
  type.lineage.findSome? fun ancestor => (ancestor.findMember? name false []).filter Member.isVoid

end Descriptor

namespace Binder

/-- The reference to the method that gives the running method. -/
def currentMethod (binder : Binder) : Except Error MemberRef × Binder :=
  match binder.require (.named methodBaseName) with
  | (.error error, binder) => (.error error, binder)
  | (.ok type, binder) =>
    (type.referTo "static GetCurrentMethod()" (type.findMember? currentMethodName true []), binder)

def handlerMembers (binder : Binder) (handler : TypeExpr) :
    Except Error HandlerMembers × Binder :=
  match binder.require handler with
  | (.error error, binder) => (.error error, binder)
  | (.ok type, binder) =>
    let found : Except Error (MemberRef × MemberRef) := do
      let construct ← type.referTo "parameterless constructor" (type.findConstructor? [])
      let handle ← type.referTo "void Handle(exception, instance, method)" type.handleMember?
      return (construct, handle)
    match found with
    | .error error => (.error error, binder)
    | .ok (construct, handle) =>
      let (currentMethod, binder) := binder.currentMethod
      (currentMethod.map fun currentMethod => ⟨construct, handle, currentMethod⟩, binder)

def profilerMembers (binder : Binder) (profiler : TypeExpr) :
    Except Error ProfilerMembers × Binder :=
  match binder.require profiler with
  | (.error error, binder) => (.error error, binder)
  | (.ok type, binder) =>
    let found : Except Error (MemberRef × MemberRef × MemberRef) := do
      let construct ← type.referTo "constructor(System.Reflection.MethodBase)"
        (type.findConstructor? [methodBaseName])
      let start ← type.referTo s!"void {startName}()" (type.hook? startName)
      let stop ← type.referTo s!"void {stopName}()" (type.hook? stopName)
      return (construct, start, stop)
    match found with
    | .error error => (.error error, binder)
    | .ok (construct, start, stop) =>
      let (currentMethod, binder) := binder.currentMethod
      (currentMethod.map fun currentMethod => ⟨construct, start, stop, currentMethod⟩, binder)

end Binder

end Splice
