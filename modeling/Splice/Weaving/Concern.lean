import Splice.Binding.Binder

/-!
# Concerns

The two concerns that are woven into methods, and the rule that says which methods want them.

Each concern has one attribute that asks for it and one that forbids it. They are read off the
method's descriptor, so that inherited attributes count. A method without a descriptor is judged by
the attributes applied to it and its type.
-/

namespace Splice

inductive Concern where
  | logging | profiling
  deriving DecidableEq, Inhabited

namespace Concern

def text : Concern → String
  | logging => "exception logging"
  | profiling => "profiling"

def enabling : Concern → String
  | logging => "CilWeave.Target.Attributes.EnableExceptionLoggingAttribute"
  | profiling => "CilWeave.Target.Attributes.EnablePerformanceProfilerAttribute"

def disabling : Concern → String
  | logging => "CilWeave.Target.Attributes.DisableExceptionLoggingAttribute"
  | profiling => "CilWeave.Target.Attributes.DisablePerformanceProfilerAttribute"

/-- A forbidding attribute on the method wins. Otherwise it is enough that the method or its type
asks for the concern. -/
def decide (methodDisables methodEnables typeEnables : Bool) : Bool :=
  !methodDisables && (methodEnables || typeEnables)

/-- The decision on a resolved member. -/
def appliesTo (concern : Concern) (type : Descriptor) (member : Member) : Bool :=
  decide (type.memberHasMarker member concern.disabling true)
    (type.memberHasMarker member concern.enabling true) (type.hasMarker concern.enabling true)

/-- The decision on a method by what is applied to it and its type. -/
def appliesDirectly (concern : Concern) (method : Method) (decl : TypeDecl) : Bool :=
  decide (method.hasAttribute concern.disabling) (method.hasAttribute concern.enabling)
    (decl.hasAttribute concern.enabling)

/-- Whether a method wants the concern. -/
def isWanted (concern : Concern) (method : Method) (decl : TypeDecl) (binder : Binder) :
    Bool × Binder :=
  match binder.resolveMethod method decl with
  | (.ok (some (type, member)), binder) => (concern.appliesTo type member, binder)
  | (_, binder) => (concern.appliesDirectly method decl, binder)

end Concern

end Splice
