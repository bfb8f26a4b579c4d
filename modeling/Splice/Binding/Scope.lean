import Splice.Binding.Environment

/-!
# Scopes

Where names are looked up, and how a type expression is resolved to a descriptor.

A name is looked up among the built-in types, then among the module's own, then in each dependency
in turn. Generic arguments and modifiers are resolved apart from what they are applied to. What has
been resolved is kept under its run-time name and found there the next time.
-/

namespace Splice

structure Scope where
  builtin : String → Option Descriptor
  /-- The types that the module declares. -/
  own : Assembly
  dependencies : List Assembly
  deriving Inhabited

/-- The types resolved so far by run-time name. -/
abbrev Cache := List (String × Descriptor)

/-- An answer beside the cache after it. -/
abbrev Cached (α : Type) := Except Error α × Cache

/-- What resolving an expression comes down to. -/
inductive Shape where
  | application (element : TypeExpr) (arguments : List TypeExpr)
  | modification (element modifier : String)
  | plain

namespace TypeExpr

/-- The run-time name, under which the expression is looked up. -/
def key (expr : TypeExpr) : String :=
  TypeName.toRuntime expr.text

/-- The shape of a bare run-time name. -/
def shapeOfName (name : String) : Shape :=
  match TypeName.splitModifier name.toList with
  | some (element, modifier) => .modification (String.ofList element) (String.ofList modifier)
  | none =>
    match TypeName.read id name.toList with
    | applied element arguments => .application element arguments
    | named _ => .plain

def shape : TypeExpr → Shape
  | applied element arguments => .application element arguments
  | named name => shapeOfName (TypeName.toRuntime name)

end TypeExpr

namespace Scope

/-- Expressions nest at most this deep. -/
def depthLimit : Nat := 100

/-- The base of every array type. -/
def arrayName : String := "System.Array"

def lookup (scope : Scope) (name : String) : Option Descriptor :=
  (scope.builtin name).or <|
    (scope.own.get? name).or <| scope.dependencies.findSome? (·.get? name)

/-- Resolve expressions in turn up to the first that is missing or fails. -/
def resolveEach (resolve : TypeExpr → Cache → Cached (Option Descriptor)) :
    List TypeExpr → Cache → Cached (Option (List Descriptor))
  | [], cache => (.ok (some []), cache)
  | expr :: rest, cache =>
    match resolve expr cache with
    | (.error error, cache) => (.error error, cache)
    | (.ok none, cache) => (.ok none, cache)
    | (.ok (some descriptor), cache) =>
      match resolveEach resolve rest cache with
      | (.error error, cache) => (.error error, cache)
      | (.ok none, cache) => (.ok none, cache)
      | (.ok (some descriptors), cache) => (.ok (some (descriptor :: descriptors)), cache)

/-- Resolve a definition and its arguments and close the one over the others. -/
def resolveApplication (resolve : TypeExpr → Cache → Cached (Option Descriptor))
    (element : TypeExpr) (arguments : List TypeExpr) (cache : Cache) :
    Cached (Option Descriptor) :=
  match resolve element cache with
  | (.error error, cache) => (.error error, cache)
  | (.ok none, cache) => (.ok none, cache)
  | (.ok (some definition), cache) =>
    match resolveEach resolve arguments cache with
    | (.error error, cache) => (.error error, cache)
    | (.ok none, cache) => (.ok none, cache)
    | (.ok (some arguments), cache) => ((definition.close arguments).map some, cache)

/-- Resolve an element and modify it. Only arrays have a base. -/
def resolveModification (scope : Scope)
    (resolve : TypeExpr → Cache → Cached (Option Descriptor)) (element modifier : String)
    (cache : Cache) : Cached (Option Descriptor) :=
  match resolve (.named element) cache with
  | (.error error, cache) => (.error error, cache)
  | (.ok none, cache) => (.ok none, cache)
  | (.ok (some descriptor), cache) =>
    let base := if modifier.startsWith "[" then scope.lookup arrayName else none
    (.ok (some (.modified descriptor modifier base)), cache)

/-- Keep what was resolved, unless something is kept under the name already. A miss is an error if
the resolution is strict. -/
def keep (strict : Bool) (key : String) : Cached (Option Descriptor) → Cached (Option Descriptor)
  | (.error error, cache) => (.error error, cache)
  | (.ok none, cache) => if strict then (.error (.unknownType key), cache) else (.ok none, cache)
  | (.ok (some descriptor), cache) =>
    match cache.lookup key with
    | some earlier => (.ok (some earlier), cache)
    | none => (.ok (some descriptor), (key, descriptor) :: cache)

/-- Resolve an expression that nests less than `depth` deep. -/
def resolveWithin (scope : Scope) (strict : Bool) :
    (depth : Nat) → TypeExpr → Cache → Cached (Option Descriptor)
  | 0, _, cache => (.error (.tooDeep depthLimit), cache)
  | depth + 1, expr, cache =>
    match cache.lookup expr.key with
    | some descriptor => (.ok (some descriptor), cache)
    | none =>
      keep strict expr.key <|
        match expr.shape with
        | .application element arguments =>
          resolveApplication (scope.resolveWithin strict depth) element arguments cache
        | .modification element modifier =>
          scope.resolveModification (scope.resolveWithin strict depth) element modifier cache
        | .plain => (.ok (scope.lookup expr.key), cache)

def resolve (scope : Scope) (strict : Bool) (expr : TypeExpr) (cache : Cache) :
    Cached (Option Descriptor) :=
  scope.resolveWithin strict depthLimit expr cache

end Scope

end Splice
