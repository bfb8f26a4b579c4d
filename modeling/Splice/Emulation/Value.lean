import Splice.Types.TypeExpr

/-!
# Values

What an emulated body computes with: words, strings and references to objects of the host.
-/

namespace Splice

inductive Value where
  | null
  | int32 (value : Int32)
  | int64 (value : Int64)
  | string (value : String)
  | object (id : Nat) (typeName : String)
  deriving DecidableEq, Inhabited

namespace Value

def ofBool (value : Bool) : Value :=
  int32 (if value then 1 else 0)

/-- The value of a variable slot before anything is stored in it. -/
def defaultFor (type : TypeExpr) : Value :=
  if type.text ∈ ["System.Boolean", "System.Char", "System.SByte", "System.Byte", "System.Int16",
      "System.UInt16", "System.Int32", "System.UInt32"] then int32 0
  else if type.text ∈ ["System.Int64", "System.UInt64"] then int64 0
  else null

/-- Whether a conditional branch takes the value for true. -/
def isTrue : Value → Bool
  | null => false
  | int32 value => value != 0
  | int64 value => value != 0
  | string _ | object _ _ => true

def text : Value → String
  | null => "null"
  | int32 value => toString value.toInt
  | int64 value => toString value.toInt ++ "L"
  | string value => "\"" ++ value ++ "\""
  | object id typeName => typeName ++ "#" ++ toString id

end Value

/-- How a call ends: with a value or without one, or with an exception. -/
inductive Completion where
  | returned (value : Option Value)
  | threw (exception : Value)
  deriving DecidableEq, Inhabited

end Splice
