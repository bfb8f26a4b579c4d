import Splice.Binding.Assembly

/-!
# The core library

The types that every universe starts with: the roots of the type system, the primitive types, the
common exceptions, what reflection needs and three generic definitions.
-/

namespace Splice.CoreLibrary

/-- The name under which the core library is known. -/
def name : String := "mscorlib"

def declare (space name : String) (base : Option Descriptor) (members : List Member := [])
    (arity : Nat := 0) : Descriptor :=
  .declared { space, name, assembly := CoreLibrary.name, members, arity } base

def object : Descriptor :=
  declare "System" "Object" none
    [.ofConstructor [], { Member.ofMethod "ToString" [] "System.String" with isVirtual := true }]

def valueType : Descriptor := declare "System" "ValueType" (some object)

def primitives : List Descriptor :=
  ["Void", "Boolean", "Char", "SByte", "Byte", "Int16", "UInt16", "Int32", "UInt32", "Int64",
    "UInt64", "Single", "Double", "IntPtr", "UIntPtr", "Decimal"].map fun name =>
      declare "System" name (some valueType)

/-- The constructors of an exception that can carry a message. -/
def messageConstructors : List Member :=
  [.ofConstructor [], .ofConstructor ["System.String"]]

def exception : Descriptor := declare "System" "Exception" (some object) messageConstructors

def systemException : Descriptor :=
  declare "System" "SystemException" (some exception) [.ofConstructor []]

def exceptions : List Descriptor :=
  [exception, systemException] ++
    ["InvalidOperationException", "ArgumentException", "NullReferenceException",
      "NotSupportedException"].map fun name =>
        declare "System" name (some systemException) messageConstructors

def memberInfo : Descriptor :=
  declare "System.Reflection" "MemberInfo" (some object)
    [{ Member.ofMethod "get_Name" [] "System.String" with isVirtual := true }]

def methodBase : Descriptor :=
  declare "System.Reflection" "MethodBase" (some memberInfo)
    [{ Member.ofMethod "GetCurrentMethod" [] "System.Reflection.MethodBase" with
        isStatic := true }]

def generics : List Descriptor :=
  [declare "System.Collections.Generic" "List`1" (some object) [.ofConstructor []] 1,
    declare "System.Collections.Generic" "Dictionary`2" (some object) [.ofConstructor []] 2,
    declare "System" "Nullable`1" (some valueType) [] 1]

def assembly : Assembly :=
  .ofTypes name <|
    [object, valueType] ++ primitives ++
      [declare "System" "String" (some object), declare "System" "Array" (some object),
        declare "System" "Attribute" (some object) [.ofConstructor []]] ++
      exceptions ++ [memberInfo, methodBase] ++ generics

end Splice.CoreLibrary
