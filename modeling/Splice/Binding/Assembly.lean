import Splice.Binding.Descriptor

/-!
# Assemblies

A named set of types, at most one for each full name.
-/

namespace Splice

structure Assembly where
  name : String
  types : List Descriptor := []
  deriving Inhabited

namespace Assembly

/-- Add a type in place of any other with its full name. -/
def add (assembly : Assembly) (type : Descriptor) : Assembly :=
  { assembly with
    types := type :: assembly.types.filter (·.fullName != type.fullName) }

def get? (assembly : Assembly) (fullName : String) : Option Descriptor :=
  assembly.types.find? (·.fullName == fullName)

def typeCount (assembly : Assembly) : Nat :=
  assembly.types.length

def ofTypes (name : String) (types : List Descriptor) : Assembly :=
  types.foldl add ⟨name, []⟩

end Assembly

end Splice
