import Splice.Weaving.Measure

/-!
# Wrapping a method

The operations that weave one concern into one method. The members that the added code calls are
resolved first; a method without a body is left alone.
-/

namespace Splice

inductive Wrap where
  /-- Report exceptions to a handler, then return normally or throw again. -/
  | guard (exception handler : TypeExpr) (rethrow : Bool)
  | measure (profiler : TypeExpr)

namespace Wrap

/-- Apply the operation to a body of the method. -/
def applyTo (wrap : Wrap) (method : Method) (body : Body) (binder : Binder) :
    Except Error Body × Binder :=
  match wrap with
  | guard exception handler rethrow =>
    let (members, binder) := binder.handlerMembers handler
    (members.bind fun members =>
      (body.guard method exception members rethrow).mapError .flawed, binder)
  | measure profiler =>
    let (members, binder) := binder.profilerMembers profiler
    (members.bind fun members =>
      (body.measure method profiler members).mapError .flawed, binder)

end Wrap

/-- The method with the operation applied to its body. -/
def Method.wrap (method : Method) (wrap : Wrap) (binder : Binder) :
    Except Error Method × Binder :=
  match method.body with
  | none => (.ok method, binder)
  | some body =>
    let (woven, binder) := wrap.applyTo method body binder
    (woven.map fun body => { method with body := some body }, binder)

end Splice
