import Splice.Weaving.Concern

/-!
# Reports

What a weaving run did to every method.
-/

namespace Splice

inductive SkipReason where
  | anonymousType | noBody | notEligible
  deriving DecidableEq, Inhabited

def SkipReason.text : SkipReason → String
  | anonymousType => "anonymous type"
  | noBody => "no body"
  | notEligible => "not eligible"

inductive Outcome where
  | woven (applied : List Concern)
  | skipped (reason : SkipReason)
  /-- The concern failed after those that were applied before it. -/
  | failed (applied : List Concern) (concern : Concern) (error : Error)
  deriving DecidableEq, Inhabited

namespace Outcome

def isWoven : Outcome → Bool
  | woven _ => true
  | _ => false

def isSkipped : Outcome → Bool
  | skipped _ => true
  | _ => false

def isFailed : Outcome → Bool
  | failed _ _ _ => true
  | _ => false

end Outcome

structure Entry where
  typeName : String
  methodName : String
  outcome : Outcome
  deriving DecidableEq, Inhabited

/-- The entries of all methods in the order of the module. -/
abbrev Report := List Entry

namespace Report

def wovenCount (report : Report) : Nat := report.countP (·.outcome.isWoven)

def skippedCount (report : Report) : Nat := report.countP (·.outcome.isSkipped)

def failedCount (report : Report) : Nat := report.countP (·.outcome.isFailed)

def isCompleteSuccess (report : Report) : Bool := report.failedCount == 0

/-- The outcome of the first method of that name in the type. -/
def outcome? (report : Report) (typeName methodName : String) : Option Outcome :=
  (report.find? fun entry => entry.typeName == typeName && entry.methodName == methodName).map
    (·.outcome)

end Report

end Splice
