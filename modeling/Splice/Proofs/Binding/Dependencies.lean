import Splice.Proofs.Binding.LookupOrder

/-!
# Dependencies

How the references of a module turn into assemblies of a universe. Each reference is located in the
universe as the ones before it have left it: an assembly that was loaded from a file for one
reference is found by its own name for the next. Directories that lead to the same files count once.
-/

namespace Splice

namespace FileTree

/-- The two paths lead to the same directory, as far as the files in it show. -/
def Alike (files : FileTree) (left right : String) : Prop :=
  ∀ name, files.fileName? (Path.join left name) = files.fileName? (Path.join right name)

end FileTree

namespace Universe

/-- The files that may hold an assembly, in the order in which they are tried. -/
def sought (directories : List String) (name : String) : List String :=
  directories.flatMap fun directory =>
    [Path.join directory (name ++ ".dll"), Path.join directory (name ++ ".exe")]

variable {files : FileTree} {coreName : String} {hidden : List String}
variable {directories : List String} {world next ended : Universe} {name : String}
variable {assembly : Assembly} {paths : List String}

/-! ## One reference -/

end Universe

namespace Binder

open Universe

variable {σ : Type} {env : Environment σ} {directories : List String} {module : Module}
variable {world ended : σ}

end Binder

end Splice
