import Splice.Code.Flaw

/-!
# Errors

Why a name is not resolved, a dependency is not loaded or a method is not woven.
-/

namespace Splice

inductive Error where
  | dependencyNotFound (name : String)
  | unknownType (name : String)
  /-- A definition is applied to a number of arguments that it does not take. -/
  | arityMismatch (definition : String) (count : Nat)
  | missingMember (typeName member : String)
  | flawed (flaw : Flaw)
  | unsupported
  | missingFile (path : String)
  | tooDeep (limit : Nat)
  deriving DecidableEq

namespace Error

def message : Error → String
  | dependencyNotFound name => s!"Assembly {name} not found"
  | unknownType name => s!"Type [{name}] could not be loaded"
  | arityMismatch definition count =>
    s!"Type [{definition} cannot be closed over {count} arguments] could not be loaded"
  | missingMember typeName member => s!"Type [{typeName}] has no usable member {member}"
  | flawed flaw => flaw.message
  | unsupported => "This file type is not supported"
  | missingFile path => s!"{path} does not exist"
  | tooDeep limit => s!"Reach the maximum recursion level allowed - {limit}"

end Error

end Splice
