import Splice.Error
import Splice.Types.TypeName

/-!
# Descriptors

What is known about a type once its name has been resolved: its bases, members and attributes, in
the run-time dialect. A descriptor describes a declared type, a generic definition closed over
arguments, or an array, pointer or reference type made from an element.

Attributes are looked up along the bases as well: a type inherits the inheritable attributes of its
bases, and a virtual member those of the members that it overrides.
-/

namespace Splice

/-- An attribute applied to a type or member, by the name of its class. -/
structure Marker where
  name : String
  inherited : Bool
  deriving DecidableEq, Inhabited

inductive MemberKind where
  | constructor | method
  deriving DecidableEq, Inhabited

structure Member where
  name : String
  kind : MemberKind
  isStatic : Bool := false
  isVirtual : Bool := false
  parameters : List String
  returns : String
  markers : List Marker := []
  deriving DecidableEq, Inhabited

namespace Member

/-- An instance constructor. -/
def ofConstructor (parameters : List String) : Member :=
  { name := ".ctor", kind := .constructor, parameters, returns := TypeExpr.voidName }

/-- An instance method that is not virtual. -/
def ofMethod (name : String) (parameters : List String) (returns : String) : Member :=
  { name, kind := .method, parameters, returns }

def isVoid (member : Member) : Bool :=
  member.returns == TypeExpr.voidName

/-- Whether one member overrides or hides the other. Return types do not count. -/
def sameSignature (left right : Member) : Bool :=
  left.name == right.name && left.kind == right.kind && left.isStatic == right.isStatic &&
    left.parameters == right.parameters

def text (member : Member) : String :=
  (if member.isStatic then "static " else "") ++ member.returns ++ " " ++ member.name ++ "(" ++
    ", ".intercalate member.parameters ++ ")"

def carries (member : Member) (marker : String) : Bool :=
  member.markers.any (·.name == marker)

/-- Whether the member passes the attribute on to those that override it. -/
def passesOn (member : Member) (marker : String) : Bool :=
  member.markers.any fun applied => applied.name == marker && applied.inherited

end Member

/-- What the declaration of a type says apart from its base. -/
structure Header where
  space : String := ""
  name : String
  /-- The full name of the type that this one is nested in. -/
  outer : Option String := none
  assembly : String := ""
  markers : List Marker := []
  members : List Member := []
  arity : Nat := 0
  deriving DecidableEq, Inhabited

def Header.fullName (header : Header) : String :=
  match header.outer with
  | some outer => outer ++ "+" ++ header.name
  | none => if header.space.isEmpty then header.name else header.space ++ "." ++ header.name

inductive Descriptor where
  | declared (header : Header) (base : Option Descriptor)
  | closed (definition : Descriptor) (arguments : List Descriptor)
  | modified (element : Descriptor) (modifier : String) (base : Option Descriptor)
  deriving Inhabited

namespace Descriptor

mutual

def fullName : Descriptor → String
  | declared header _ => header.fullName
  | closed definition arguments =>
    definition.fullName ++ "[" ++ ",".intercalate (fullNames arguments) ++ "]"
  | modified element modifier _ => element.fullName ++ modifier

def fullNames : List Descriptor → List String
  | [] => []
  | descriptor :: rest => descriptor.fullName :: fullNames rest

end

@[simp] theorem fullNames_eq_map (descriptors : List Descriptor) :
    fullNames descriptors = descriptors.map fullName := by
  induction descriptors with
  | nil => rfl
  | cons descriptor rest ih => simp [fullNames, ih]

def space : Descriptor → String
  | declared header _ => header.space
  | closed definition _ => definition.space
  | modified element _ _ => element.space

def name : Descriptor → String
  | declared header _ => header.name
  | closed definition _ => definition.name
  | modified element modifier _ => element.name ++ modifier

def assembly : Descriptor → String
  | declared header _ => header.assembly
  | closed definition _ => definition.assembly
  | modified element _ _ => element.assembly

def markers : Descriptor → List Marker
  | declared header _ => header.markers
  | closed definition _ => definition.markers
  | modified _ _ _ => []

def members : Descriptor → List Member
  | declared header _ => header.members
  | closed definition _ => definition.members
  | modified _ _ _ => []

/-- How many arguments the type takes as a generic definition. -/
def arity : Descriptor → Nat
  | declared header _ => header.arity
  | closed _ _ | modified _ _ _ => 0

def definition? : Descriptor → Option Descriptor
  | closed definition _ => some definition
  | _ => none

def arguments : Descriptor → List Descriptor
  | closed _ arguments => arguments
  | _ => []

def element? : Descriptor → Option Descriptor
  | modified element _ _ => some element
  | _ => none

/-- The bases of the type, the nearest first. -/
def bases : Descriptor → List Descriptor
  | declared _ none | modified _ _ none => []
  | declared _ (some base) | modified _ _ (some base) => base :: base.bases
  | closed definition _ => definition.bases

/-- The type and its bases. -/
def lineage (descriptor : Descriptor) : List Descriptor :=
  descriptor :: descriptor.bases

/-- Close a generic definition over as many arguments as it takes. -/
def close (definition : Descriptor) (arguments : List Descriptor) : Except Error Descriptor :=
  if definition.arity = 0 ∨ definition.arity ≠ arguments.length then
    .error (.arityMismatch definition.fullName arguments.length)
  else .ok (closed definition arguments)

def isSubclassOf (descriptor : Descriptor) (ancestor : String) : Bool :=
  descriptor.lineage.any (·.fullName == ancestor)

def carries (descriptor : Descriptor) (marker : String) : Bool :=
  descriptor.markers.any (·.name == marker)

/-- Whether the type passes the attribute on to those that derive from it. -/
def passesOn (descriptor : Descriptor) (marker : String) : Bool :=
  descriptor.markers.any fun applied => applied.name == marker && applied.inherited

/-- Whether the attribute is on the type or, if asked for, inherited. -/
def hasMarker (descriptor : Descriptor) (marker : String) (inherit : Bool) : Bool :=
  descriptor.carries marker || (inherit && descriptor.bases.any (·.passesOn marker))

/-- The virtual member of the type with the signature of the given one. -/
def overridden? (descriptor : Descriptor) (member : Member) : Option Member :=
  descriptor.members.find? fun other => other.isVirtual && other.sameSignature member

/-- Whether the attribute is on a member of the type or, if asked for, on one that it overrides. -/
def memberHasMarker (descriptor : Descriptor) (member : Member) (marker : String)
    (inherit : Bool) : Bool :=
  member.carries marker ||
    (inherit && member.isVirtual &&
      (descriptor.bases.filterMap (·.overridden? member)).any (·.passesOn marker))

def findMember? (descriptor : Descriptor) (name : String) (isStatic : Bool)
    (parameters : List String) : Option Member :=
  descriptor.members.find? fun member =>
    member.name == name && member.isStatic == isStatic && member.parameters == parameters

def findConstructor? (descriptor : Descriptor) (parameters : List String) : Option Member :=
  descriptor.members.find? fun member =>
    member.kind == .constructor && !member.isStatic && member.parameters == parameters

def membersNamed (descriptor : Descriptor) (name : String) : List Member :=
  descriptor.members.filter (·.name == name)

mutual

/-- The expression by which a module refers to the type. -/
def toExpr : Descriptor → TypeExpr
  | declared header _ => .named (TypeName.toMetadata header.fullName)
  | closed definition arguments => .applied definition.toExpr (toExprs arguments)
  | modified element modifier _ => .named (element.toExpr.text ++ modifier)

def toExprs : List Descriptor → List TypeExpr
  | [] => []
  | descriptor :: rest => descriptor.toExpr :: toExprs rest

end

/-- The reference by which an instruction calls a member of the type. -/
def memberRef (declaring : Descriptor) (member : Member) : MemberRef where
  declaring := declaring.toExpr
  name := member.name
  parameters := member.parameters.map TypeName.toExpr
  returns := TypeName.toExpr member.returns
  hasThis := !member.isStatic

end Descriptor

end Splice
