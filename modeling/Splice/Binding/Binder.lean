import Splice.Binding.Scope
import Splice.Module

/-!
# Binders

A binder connects a module with the environment: it locates the module's dependencies, describes the
types that the module declares, and from then on resolves type expressions and methods.

A type can be described with its base only after the base is resolved. Types whose bases resolve are
described first, round after round, and those that are left once a round gets no further are
described without a base.
-/

namespace Splice

variable {σ : Type}

namespace Environment

/-- The core library is never a dependency, under whatever capitals it is written. -/
def isCore (env : Environment σ) (name : String) : Bool :=
  name.toLower == CoreLibrary.name || name == env.coreName

/-- The files that may hold an assembly, in the order in which they are tried. -/
def candidates (directories : List String) (name : String) : List String :=
  directories.flatMap fun directory =>
    ["dll", "exe"].map fun extension => Path.join directory (name ++ "." ++ extension)

/-- Load the first of the files that can be loaded. -/
def loadFirst (env : Environment σ) : List String → σ → Option Assembly × σ
  | [], world => (none, world)
  | path :: rest, world =>
    if env.isFile path then
      match env.load path world with
      | (.ok assembly, world) => (some assembly, world)
      | (.error _, world) => env.loadFirst rest world
    else env.loadFirst rest world

/-- The assembly loaded under the name, or else one loaded from a file. -/
def dependency (env : Environment σ) (directories : List String) (name : String) (world : σ) :
    Except Error Assembly × σ :=
  match env.loaded world name with
  | some assembly => (.ok assembly, world)
  | none =>
    match env.loadFirst (candidates directories name) world with
    | (some assembly, world) => (.ok assembly, world)
    | (none, world) => (.error (.dependencyNotFound name), world)

/-- The dependencies for several references in turn. -/
def dependencies (env : Environment σ) (directories : List String) :
    List String → σ → Except Error (List Assembly) × σ
  | [], world => (.ok [], world)
  | name :: rest, world =>
    if env.isCore name then env.dependencies directories rest world
    else
      match env.dependency directories name world with
      | (.error error, world) => (.error error, world)
      | (.ok assembly, world) =>
        match env.dependencies directories rest world with
        | (.error error, world) => (.error error, world)
        | (.ok assemblies, world) => (.ok (assembly :: assemblies), world)

end Environment

namespace Method

/-- The method as a member of its type's descriptor. Attributes in metadata say nothing about
inheritance and count as inherited. -/
def toMember (method : Method) : Member where
  name := method.name
  kind := if method.isConstructor then .constructor else .method
  isStatic := method.isStatic
  isVirtual := method.isVirtual
  parameters := method.parameters.map (·.type.key)
  returns := method.returns.key
  markers := method.attributes.map fun type => ⟨type.key, true⟩

end Method

namespace TypeDecl

/-- The header of the type's descriptor. A nested type is named by the type around it and has no
namespace. -/
def header (decl : TypeDecl) (assembly : String) : Header where
  space := if decl.outer.isSome then "" else decl.space
  name := if decl.outer.isSome then TypeName.toRuntime decl.name else decl.name
  outer := decl.outer.map TypeName.toRuntime
  assembly := assembly
  markers := decl.attributes.map fun type => ⟨type.key, true⟩
  members := decl.methods.map Method.toMember
  arity := TypeName.arity decl.name

end TypeDecl

structure Binder where
  scope : Scope
  cache : Cache := []
  deriving Inhabited

namespace Binder

/-- Resolve a type expression. A lenient resolution answers a miss with nothing. -/
def resolve (binder : Binder) (strict : Bool) (expr : TypeExpr) :
    Except Error (Option Descriptor) × Binder :=
  let (answer, cache) := binder.scope.resolve strict expr binder.cache
  (answer, { binder with cache })

/-- Resolve a type expression that has to exist. -/
def require (binder : Binder) (expr : TypeExpr) : Except Error Descriptor × Binder :=
  match binder.resolve true expr with
  | (.ok (some descriptor), binder) => (.ok descriptor, binder)
  | (.ok none, binder) => (.error (.unknownType expr.key), binder)
  | (.error error, binder) => (.error error, binder)

/-- Describe a type of the module. -/
def declare (binder : Binder) (decl : TypeDecl) (base : Option Descriptor) : Binder :=
  let own := binder.scope.own
  let type := Descriptor.declared (decl.header own.name) base
  { binder with scope := { binder.scope with own := own.add type } }

/-- The base that a type can be described with now, or nothing while it does not resolve. -/
def baseOf (binder : Binder) (decl : TypeDecl) : Option (Option Descriptor) × Binder :=
  match decl.base with
  | none => (some none, binder)
  | some base =>
    match binder.resolve false base with
    | (.ok (some descriptor), binder) => (some (some descriptor), binder)
    | (_, binder) => (none, binder)

/-- Describe every type whose base resolves by its turn, and give those that are left. -/
def describeReady (binder : Binder) : List TypeDecl → List TypeDecl × Binder
  | [] => ([], binder)
  | decl :: rest =>
    match binder.baseOf decl with
    | (some base, binder) => (binder.declare decl base).describeReady rest
    | (none, binder) =>
      let (left, binder) := binder.describeReady rest
      (decl :: left, binder)

/-- Describe all types. -/
def describe (binder : Binder) (decls : List TypeDecl) : Binder :=
  let (left, binder) := binder.describeReady decls
  if left.length < decls.length then binder.describe left
  else left.foldl (fun binder decl => binder.declare decl none) binder
termination_by decls.length

/-- The binder of a module. Dependencies are sought in the module's own directory first. -/
def ofModule (env : Environment σ) (directories : List String) (module : Module) (world : σ) :
    Except Error Binder × σ :=
  let directories := module.directory?.toList ++ directories
  match env.dependencies directories module.references world with
  | (.error error, world) => (.error error, world)
  | (.ok dependencies, world) =>
    let scope : Scope := ⟨env.builtin world, ⟨module.name, []⟩, dependencies⟩
    (.ok (({ scope } : Binder).describe module.types), world)

/-- The full names of required types. -/
def requireNames (binder : Binder) : List TypeExpr → Except Error (List String) × Binder
  | [] => (.ok [], binder)
  | expr :: rest =>
    match binder.require expr with
    | (.error error, binder) => (.error error, binder)
    | (.ok descriptor, binder) =>
      match binder.requireNames rest with
      | (.error error, binder) => (.error error, binder)
      | (.ok names, binder) => (.ok (descriptor.fullName :: names), binder)

/-- The member of a descriptor that corresponds to a method with resolved parameter types. -/
def memberOf? (descriptor : Descriptor) (method : Method) (parameters : List String) :
    Option Member :=
  let kind := method.toMember.kind
  descriptor.members.find? fun member =>
    member.name == method.name && member.kind == kind && member.isStatic == method.isStatic &&
      member.parameters == parameters

/-- Resolve a method to the descriptor of its type and the corresponding member. -/
def resolveMethod (binder : Binder) (method : Method) (decl : TypeDecl) :
    Except Error (Option (Descriptor × Member)) × Binder :=
  match binder.resolve false decl.toExpr with
  | (.error error, binder) => (.error error, binder)
  | (.ok none, binder) => (.ok none, binder)
  | (.ok (some descriptor), binder) =>
    match binder.requireNames (method.parameters.map (·.type)) with
    | (.error error, binder) => (.error error, binder)
    | (.ok parameters, binder) =>
      (.ok ((memberOf? descriptor method parameters).map (descriptor, ·)), binder)

end Binder

end Splice
