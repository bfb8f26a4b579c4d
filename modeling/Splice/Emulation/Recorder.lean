import Splice.Emulation.Host

/-!
# The recording host

A host that answers every call with an inert value and remembers it. It can be told that one class
derives from another, and that a member throws.
-/

namespace Splice

/-- A call as the recorder remembers it. Constructions have no receiver. -/
structure Call where
  typeName : String
  member : String
  receiver : Option Value
  arguments : List Value
  deriving DecidableEq, Inhabited

structure Recorder where
  calls : Array Call
  /-- The base of each class. The first entry for a class counts. -/
  bases : List (String × String)
  /-- The exception class that a member of a type throws. The first entry for a member counts. -/
  raises : List ((String × String) × String)
  nextId : Nat
  deriving Inhabited

namespace Recorder

def objectName : String := "System.Object"

def stringName : String := "System.String"

/-- A recorder that knows the common exception classes. -/
def new : Recorder where
  calls := #[]
  bases :=
    [("System.Exception", objectName),
      ("System.SystemException", "System.Exception"),
      ("System.InvalidOperationException", "System.SystemException"),
      ("System.ArgumentException", "System.SystemException"),
      ("System.NullReferenceException", "System.SystemException"),
      ("System.NotSupportedException", "System.SystemException"),
      ("System.Reflection.MethodBase", "System.Reflection.MemberInfo"),
      ("System.Reflection.MemberInfo", objectName)]
  raises := []
  nextId := 1

def withBase (recorder : Recorder) (derived base : String) : Recorder :=
  { recorder with bases := (derived, base) :: recorder.bases }

def raiseFrom (recorder : Recorder) (typeName member exception : String) : Recorder :=
  { recorder with raises := ((typeName, member), exception) :: recorder.raises }

/-- A new object of the class. -/
def allocate (recorder : Recorder) (typeName : String) : Value × Recorder :=
  (.object recorder.nextId typeName, { recorder with nextId := recorder.nextId + 1 })

def callNames (recorder : Recorder) : List String :=
  recorder.calls.toList.map (·.member)

def count (recorder : Recorder) (member : String) : Nat :=
  recorder.callNames.count member

def record (recorder : Recorder) (member : MemberRef) (receiver : Option Value)
    (arguments : List Value) : Recorder :=
  { recorder with
    calls := recorder.calls.push ⟨member.declaring.text, member.name, receiver, arguments⟩ }

/-- The exception class that a call of the member throws. -/
def raised? (recorder : Recorder) (member : MemberRef) : Option String :=
  recorder.raises.lookup (member.declaring.text, member.name)

/-- Throw what the member is told to throw, or go on. -/
def raiseOr (recorder : Recorder) (member : MemberRef)
    (answer : Recorder → Completion × Recorder) : Except Fault Completion × Recorder :=
  match recorder.raised? member with
  | some exception =>
    let (value, recorder) := recorder.allocate exception
    (.ok (.threw value), recorder)
  | none =>
    let (completion, recorder) := answer recorder
    (.ok completion, recorder)

def construct (member : MemberRef) (arguments : List Value) (recorder : Recorder) :
    Except Fault Completion × Recorder :=
  (recorder.record member none arguments).raiseOr member fun recorder =>
    let (value, recorder) := recorder.allocate member.declaring.text
    (.returned (some value), recorder)

/-- A call returns the default of a simple type and a new object of any other. -/
def call (member : MemberRef) (receiver : Option Value) (arguments : List Value)
    (recorder : Recorder) : Except Fault Completion × Recorder :=
  (recorder.record member receiver arguments).raiseOr member fun recorder =>
    if member.returns.isVoid then (.returned none, recorder)
    else
      match Value.defaultFor member.returns with
      | .null =>
        let (value, recorder) := recorder.allocate member.returns.text
        (.returned (some value), recorder)
      | value => (.returned (some value), recorder)

/-- The class whose bases decide a type test of the value. -/
def classOf? : Value → Option String
  | .object _ typeName => some typeName
  | .string _ => some stringName
  | .null | .int32 _ | .int64 _ => none

/-- The class from which the given one derives directly. -/
def base? (recorder : Recorder) (name : String) : Option String :=
  recorder.bases.lookup name

/-- Look for an ancestor in at most the given number of classes, going from each one to its base.
Every class derives from itself and from `System.Object`. A walk that is cut short decides
nothing. -/
def walk (recorder : Recorder) (ancestor : String) : (classes : Nat) → (name : String) → Option Bool
  | 0, _ => none
  | classes + 1, name =>
    if name = ancestor ∨ ancestor = objectName then some true
    else
      match recorder.base? name with
      | some base => recorder.walk ancestor classes base
      | none => some false

/-- A type test that looks at no more than the given number of classes. -/
def testWithin (recorder : Recorder) (classes : Nat) (value : Value) (type : TypeExpr) :
    Option Bool :=
  match classOf? value with
  | some name => recorder.walk type.text classes name
  | none => some false

/-- The answer to a type test that comes to an end. A walk over more classes than there are bases
goes in a circle and never meets the type. -/
def test? (recorder : Recorder) (value : Value) (type : TypeExpr) : Option Bool :=
  recorder.testWithin (recorder.bases.length + 1) value type

/-- The type test of a host, where a test without an end counts as failed. -/
def isInstance (recorder : Recorder) (value : Value) (type : TypeExpr) : Bool :=
  (recorder.test? value type).getD false

def host : Host Recorder := ⟨construct, call, isInstance⟩

end Recorder

end Splice
