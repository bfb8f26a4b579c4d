import Splice.Weaving.Wrap
import Splice.Weaving.Concern

/-!
# Settings of a weaving run
-/

namespace Splice

/-- What a handler of woven logging does after reporting an exception. -/
inductive LoggingMode where
  | absorb | rethrow
  deriving DecidableEq, Inhabited

structure Settings where
  logging : Bool := true
  profiling : Bool := false
  loggingMode : LoggingMode := .rethrow
  /-- Profile only the methods that want it. -/
  filterProfiling : Bool := true
  /-- Log in test methods even if they do not want it. -/
  includeTestMethods : Bool := true
  testMethodAttribute : String := "Microsoft.VisualStudio.TestTools.UnitTesting.TestMethodAttribute"
  exception : TypeExpr := .named "System.Exception"
  handler : TypeExpr := .named "CilWeave.Handlers.TestContextExceptionLogger"
  profiler : TypeExpr := .named "CilWeave.Handlers.PerformanceLogger"
  /-- Where dependencies are sought after the module's own directory. -/
  directories : List String := []
  deriving DecidableEq, Inhabited

namespace Settings

def loggingOnly : Settings := {}

def profilingOnly : Settings := { logging := false, profiling := true }

def both : Settings := { logging := true, profiling := true }

/-- The operation that weaves a concern into a method. -/
def wrapFor (settings : Settings) : Concern → Wrap
  | .logging => .guard settings.exception settings.handler (settings.loggingMode == .rethrow)
  | .profiling => .measure settings.profiler

end Settings

end Splice
