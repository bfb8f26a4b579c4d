import Splice.Code.Body
import Splice.Files.Path

/-!
# Modules

A module as a loader hands it over: its types with their methods, attributes and bodies. Only the
bodies are ever changed.
-/

namespace Splice

structure Parameter where
  name : String
  type : TypeExpr
  deriving DecidableEq, Inhabited

/-- A method with the attributes applied directly to it. -/
structure Method where
  name : String
  returns : TypeExpr := .void
  isStatic : Bool := false
  isVirtual : Bool := false
  parameters : List Parameter := []
  attributes : List TypeExpr := []
  body : Option Body := none
  deriving DecidableEq, Inhabited

namespace Method

/-- Instance and type constructors go by fixed names. -/
def isConstructor (method : Method) : Bool :=
  method.name == ".ctor" || method.name == ".cctor"

def isVoid (method : Method) : Bool := method.returns.isVoid

def hasBody (method : Method) : Bool := method.body.isSome

def hasAttribute (method : Method) (attributeName : String) : Bool :=
  method.attributes.any (·.text == attributeName)

end Method

/-- A type with the attributes applied directly to it. -/
structure TypeDecl where
  space : String := ""
  name : String
  /-- The full name of the type that this one is nested in. -/
  outer : Option String := none
  base : Option TypeExpr := none
  attributes : List TypeExpr := []
  methods : List Method := []
  deriving DecidableEq, Inhabited

namespace TypeDecl

def fullName (decl : TypeDecl) : String :=
  match decl.outer with
  | some outer => outer ++ "/" ++ decl.name
  | none => if decl.space.isEmpty then decl.name else decl.space ++ "." ++ decl.name

def toExpr (decl : TypeDecl) : TypeExpr := .named decl.fullName

/-- Types without a namespace are made by compilers. -/
def isAnonymous (decl : TypeDecl) : Bool := decl.space.isEmpty

def hasAttribute (decl : TypeDecl) (attributeName : String) : Bool :=
  decl.attributes.any (·.text == attributeName)

def findMethod? (decl : TypeDecl) (name : String) : Option Method :=
  decl.methods.find? (·.name == name)

end TypeDecl

structure Module where
  name : String
  path : Option String := none
  references : List String := []
  types : List TypeDecl := []
  deriving DecidableEq, Inhabited

namespace Module

/-- The directory that the module was loaded from. -/
def directory? (module : Module) : Option String :=
  module.path.bind Path.parent?

def findType? (module : Module) (fullName : String) : Option TypeDecl :=
  module.types.find? (·.fullName == fullName)

def findMethod? (module : Module) (type method : String) : Option Method :=
  (module.findType? type).bind (·.findMethod? method)

/-- Change the first entry that is accepted. -/
def modifyFirst {α : Type} (accept : α → Bool) (change : α → α) : List α → List α
  | [] => []
  | value :: rest =>
    if accept value then change value :: rest else value :: modifyFirst accept change rest

/-- Change the method that `findMethod?` finds. -/
def modifyMethod (module : Module) (type method : String) (change : Method → Method) : Module :=
  { module with
    types := modifyFirst (·.fullName == type)
      (fun decl => { decl with methods := modifyFirst (·.name == method) change decl.methods })
      module.types }

def methodCount (module : Module) : Nat :=
  (module.types.flatMap (·.methods)).length

end Module

end Splice
