import Splice.Emulation.Host
import Splice.Weaving.Members
import Splice.Proofs.Success

/-!
# Found members

The members that woven code calls are found by their signatures, so the woven code passes each of
them what it takes.
-/

namespace Splice

theorem toExpr_voidName : TypeName.toExpr TypeExpr.voidName = TypeExpr.void := by decide +kernel

/-- A member without parameters that belongs to the type itself. -/
structure MemberRef.IsGetter (member : MemberRef) : Prop where
  hasThis : member.hasThis = false
  parameters : member.parameters = []

/-- A void member of an object that takes so many arguments. -/
structure MemberRef.IsAction (member : MemberRef) (arity : Nat) : Prop where
  hasThis : member.hasThis = true
  parameters : member.parameters.length = arity
  isVoid : member.returns.isVoid = true

theorem MemberRef.IsGetter.stackArguments {member : MemberRef} (getter : member.IsGetter) :
    member.stackArguments = 0 := by
  rw [MemberRef.stackArguments, getter.parameters, getter.hasThis]
  rfl

theorem MemberRef.IsAction.stackArguments {member : MemberRef} {arity : Nat}
    (action : member.IsAction arity) : member.stackArguments = arity + 1 := by
  rw [MemberRef.stackArguments, action.parameters, action.hasThis]
  rfl

structure HandlerMembers.AreCallable (members : HandlerMembers) : Prop where
  construct : members.construct.parameters = []
  handle : members.handle.IsAction 3
  currentMethod : members.currentMethod.IsGetter

structure ProfilerMembers.AreCallable (members : ProfilerMembers) : Prop where
  construct : members.construct.parameters.length = 1
  start : members.start.IsAction 0
  stop : members.stop.IsAction 0
  currentMethod : members.currentMethod.IsGetter

namespace Descriptor

variable {type : Descriptor} {description name : String} {found? : Option Member}
variable {member : MemberRef}

theorem referTo_eq_ok_iff :
    type.referTo description found? = .ok member ↔
      ∃ found, found? = some found ∧ type.memberRef found = member := by
  cases found? <;> simp [referTo, missing]

theorem isAction_of_isVoid {found : Member} {arity : Nat} (isInstance : found.isStatic = false)
    (parameters : found.parameters.length = arity) (isVoid : found.isVoid = true) :
    (type.memberRef found).IsAction arity where
  hasThis := by simp [memberRef, isInstance]
  parameters := by simp [memberRef, parameters]
  isVoid := by
    simp only [Member.isVoid, beq_iff_eq] at isVoid
    simp only [memberRef, isVoid, toExpr_voidName]
    decide +kernel

theorem isAction_handleMember? {found : Member} (handles : type.handleMember? = some found) :
    (type.memberRef found).IsAction 3 := by
  have shape := List.find?_some handles
  simp only [Bool.and_eq_true, Bool.not_eq_true', beq_iff_eq] at shape
  exact isAction_of_isVoid shape.1.1.2 shape.1.2 shape.2

theorem isAction_hook? {found : Member} (hooks : type.hook? name = some found) :
    (type.memberRef found).IsAction 0 := by
  obtain ⟨_, ancestor, _, _, hooks, _⟩ := List.findSome?_eq_some_iff.mp hooks
  obtain ⟨foundMember, isVoid⟩ := Option.filter_eq_some_iff.mp hooks
  have shape := List.find?_some foundMember
  simp only [Bool.and_eq_true, beq_iff_eq] at shape
  exact isAction_of_isVoid shape.1.2 (by rw [shape.2, List.length_nil]) isVoid

theorem parameters_findConstructor? {found : Member} {parameters : List String}
    (constructs : type.findConstructor? parameters = some found) :
    (type.memberRef found).parameters = parameters.map TypeName.toExpr := by
  have shape := List.find?_some constructs
  simp only [Bool.and_eq_true, beq_iff_eq] at shape
  rw [memberRef, shape.2]

end Descriptor

namespace Binder

variable {binder : Binder}

theorem isGetter_currentMethod {member : MemberRef} (found : binder.currentMethod.1 = .ok member) :
    member.IsGetter := by
  simp only [currentMethod] at found
  split at found
  · cases found
  · obtain ⟨method, getter, rfl⟩ := Descriptor.referTo_eq_ok_iff.mp found
    have shape := List.find?_some getter
    simp only [Bool.and_eq_true, beq_iff_eq] at shape
    exact ⟨by simp [Descriptor.memberRef, shape.1.2], by simp [Descriptor.memberRef, shape.2]⟩

theorem areCallable_handlerMembers {handler : TypeExpr} {members : HandlerMembers}
    (found : (binder.handlerMembers handler).1 = .ok members) : members.AreCallable := by
  unfold handlerMembers at found
  split at found
  · cases found
  · dsimp only at found
    split at found
    · cases found
    next resolved =>
      simp only [bind_eq_ok_iff, Descriptor.referTo_eq_ok_iff, pure_eq_ok_iff,
        Prod.mk.injEq] at resolved
      obtain ⟨_, ⟨_, constructs, rfl⟩, _, ⟨_, handles, rfl⟩, rfl, rfl⟩ := resolved
      rw [map_eq_ok_iff] at found
      obtain ⟨getter, current, rfl⟩ := found
      exact ⟨Descriptor.parameters_findConstructor? constructs,
        Descriptor.isAction_handleMember? handles, isGetter_currentMethod current⟩

theorem areCallable_profilerMembers {profiler : TypeExpr} {members : ProfilerMembers}
    (found : (binder.profilerMembers profiler).1 = .ok members) : members.AreCallable := by
  unfold profilerMembers at found
  split at found
  · cases found
  · dsimp only at found
    split at found
    · cases found
    next resolved =>
      simp only [bind_eq_ok_iff, Descriptor.referTo_eq_ok_iff, pure_eq_ok_iff,
        Prod.mk.injEq] at resolved
      obtain ⟨_, ⟨_, constructs, rfl⟩, _, ⟨_, starts, rfl⟩, _, ⟨_, stops, rfl⟩, rfl, rfl, rfl⟩ :=
        resolved
      rw [map_eq_ok_iff] at found
      obtain ⟨getter, current, rfl⟩ := found
      have parameters := congrArg List.length (Descriptor.parameters_findConstructor? constructs)
      exact ⟨parameters, Descriptor.isAction_hook? starts, Descriptor.isAction_hook? stops,
        isGetter_currentMethod current⟩

end Binder

/-! ## A sample -/

namespace Sample

/-- A class that can serve as a handler and as a profiler. -/
def monitor : Descriptor :=
  .declared
    { space := "Sample"
      name := "Monitor"
      members := [.ofConstructor [], .ofConstructor [methodBaseName],
        .ofMethod handleName ["System.Exception", "System.Object", methodBaseName]
          TypeExpr.voidName,
        .ofMethod startName [] TypeExpr.voidName, .ofMethod stopName [] TypeExpr.voidName] }
    none

def methodBase : Descriptor :=
  .declared
    { space := "System.Reflection"
      name := "MethodBase"
      members := [{ Member.ofMethod currentMethodName [] methodBaseName with isStatic := true }] }
    none

def binder : Binder where
  scope :=
    { builtin := fun name => if name = methodBaseName then some methodBase else none
      own := ⟨"Sample", [monitor]⟩
      dependencies := [] }

def monitorType : TypeExpr := .named "Sample.Monitor"

def exceptionType : TypeExpr := .named "System.Exception"

/-- A static method with the given code. -/
def method (returns : TypeExpr) (code : List Instruction) : Method where
  name := "M"
  returns := returns
  isStatic := true
  body := some (Body.empty.appendAll code)

/-- A host that constructs a new object each time and takes every value for an exception. -/
def host : Host Nat where
  construct := fun constructor _ created =>
    (.ok (.returned (some (.object created constructor.declaring.text))), created + 1)
  call := fun callee _ _ created =>
    if callee.returns.isVoid then (.ok (.returned none), created)
    else (.ok (.returned (some (.object created callee.returns.text))), created + 1)
  isInstance := fun _ _ _ => true

end Sample

end Splice
