/-!
# Type expressions

The symbolic types of a module: what a signature, a variable slot or a catch clause names before
anything has been looked up. An expression is a bare name or a generic definition applied to
arguments; arrays, pointers and references are part of a bare name.
-/

namespace Splice

/-- A symbolic type. Two expressions with one text may still differ in structure. -/
inductive TypeExpr where
  | named (name : String)
  | applied (element : TypeExpr) (arguments : List TypeExpr)
  deriving Inhabited

namespace TypeExpr

mutual

/-- Equality of expressions is decided by structure. -/
def decEq : (left right : TypeExpr) → Decidable (left = right)
  | named left, named right =>
    if same : left = right then isTrue (by rw [same]) else isFalse (by simp [same])
  | named _, applied _ _ => isFalse (by simp)
  | applied _ _, named _ => isFalse (by simp)
  | applied left lefts, applied right rights =>
    match decEq left right, decEqAll lefts rights with
    | isTrue same, isTrue sames => isTrue (by rw [same, sames])
    | isFalse differ, _ => isFalse (by simp [differ])
    | _, isFalse differ => isFalse (by simp [differ])

def decEqAll : (lefts rights : List TypeExpr) → Decidable (lefts = rights)
  | [], [] => isTrue rfl
  | [], _ :: _ => isFalse (by simp)
  | _ :: _, [] => isFalse (by simp)
  | left :: lefts, right :: rights =>
    match decEq left right, decEqAll lefts rights with
    | isTrue same, isTrue sames => isTrue (by rw [same, sames])
    | isFalse differ, _ => isFalse (by simp [differ])
    | _, isFalse differ => isFalse (by simp [differ])

end

instance : DecidableEq TypeExpr := decEq

mutual

/-- The name by which metadata refers to the type, such as `List<System.Int32>`. -/
def text : TypeExpr → String
  | named name => name
  | applied element arguments => element.text ++ "<" ++ ",".intercalate (texts arguments) ++ ">"

def texts : List TypeExpr → List String
  | [] => []
  | expr :: rest => expr.text :: texts rest

end

@[simp] theorem texts_eq_map (exprs : List TypeExpr) : texts exprs = exprs.map text := by
  induction exprs with
  | nil => rfl
  | cons expr rest ih => simp [texts, ih]

@[simp] theorem text_named (name : String) : (named name).text = name := rfl

/-- The type of a method that returns nothing. -/
def voidName : String := "System.Void"

def void : TypeExpr := named voidName

def isVoid (expr : TypeExpr) : Bool :=
  expr.text == voidName

def isApplied : TypeExpr → Bool
  | named _ => false
  | applied _ _ => true

/-- The generic definition of an application. -/
def element? : TypeExpr → Option TypeExpr
  | named _ => none
  | applied element _ => some element

def arguments : TypeExpr → List TypeExpr
  | named _ => []
  | applied _ arguments => arguments

/-- All of a name before its last dot, and nothing when it has none. -/
def beforeLastDot (name : List Char) : List Char :=
  ((name.reverse.dropWhile (· ≠ '.')).drop 1).reverse

/-- The namespace of the type, or of the definition it applies. A nested type has none. -/
def namespaceName (expr : TypeExpr) : String :=
  let base := (expr.element?.getD expr).text.toList
  if '/' ∈ base then "" else String.ofList (beforeLastDot base)

end TypeExpr

/-- A member of another type, as an instruction names it. -/
structure MemberRef where
  declaring : TypeExpr
  name : String
  parameters : List TypeExpr
  returns : TypeExpr
  hasThis : Bool
  deriving DecidableEq, Inhabited

namespace MemberRef

/-- How many values a call takes from the evaluation stack. -/
def stackArguments (member : MemberRef) : Nat :=
  member.parameters.length + member.hasThis.toNat

def isConstructor (member : MemberRef) : Bool :=
  member.name == ".ctor"

def text (member : MemberRef) : String :=
  member.returns.text ++ " " ++ member.declaring.text ++ "::" ++ member.name ++ "(" ++
    ",".intercalate (member.parameters.map TypeExpr.text) ++ ")"

end MemberRef

end Splice
