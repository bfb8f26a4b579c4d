import Splice.Binding.CoreLibrary
import Splice.Files.FileTree

/-!
# Environments

Where types outside a module come from: an environment knows the built-in types and the assemblies
that are loaded, and can load more of them from files. A universe is such an environment in memory,
with the contents of files registered as images by file name.
-/

namespace Splice

/-- The operations of an environment over its state. A failed load may still have changed the
state. -/
structure Environment (σ : Type) where
  /-- The name that references to the core library use. -/
  coreName : String
  builtin : σ → String → Option Descriptor
  loaded : σ → String → Option Assembly
  isFile : String → Bool
  load : String → σ → Except Error Assembly × σ

structure Universe where
  core : Assembly
  /-- The loaded assemblies. The first one of a name counts. -/
  loadedAssemblies : List Assembly
  /-- What loading a file gives, by file name. The first entry of a name counts. -/
  images : List (String × Assembly)
  deriving Inhabited

namespace Universe

def new : Universe := ⟨CoreLibrary.assembly, [], []⟩

def addBuiltin (world : Universe) (type : Descriptor) : Universe :=
  { world with core := world.core.add type }

def addLoaded (world : Universe) (assembly : Assembly) : Universe :=
  { world with loadedAssemblies := assembly :: world.loadedAssemblies }

def registerImage (world : Universe) (fileName : String) (assembly : Assembly) : Universe :=
  { world with images := (fileName, assembly) :: world.images }

def builtin (world : Universe) (fullName : String) : Option Descriptor :=
  world.core.get? fullName

def loaded (world : Universe) (name : String) : Option Assembly :=
  if name == world.core.name then some world.core
  else world.loadedAssemblies.find? (·.name == name)

/-- Load the image of a file. The assembly is then loaded under its own name, whatever the name of
the file. -/
def load (files : FileTree) (path : String) (world : Universe) :
    Except Error Assembly × Universe :=
  match files.fileName? path with
  | none => (.error (.missingFile path), world)
  | some fileName =>
    match world.images.lookup fileName with
    | none => (.error .unsupported, world)
    | some assembly => (.ok assembly, world.addLoaded assembly)

/-- The universe as an environment, in which the hidden types are not built in. -/
def environment (files : FileTree) (coreName : String) (hidden : List String) :
    Environment Universe where
  coreName
  builtin world fullName := if fullName ∈ hidden then none else world.builtin fullName
  loaded := loaded
  isFile path := (files.fileName? path).isSome
  load := load files

end Universe

end Splice
