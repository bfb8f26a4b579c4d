import Splice.Proofs.Binding.Methods

/-!
# Changes to members

Resolving a type reads the names of types and their arities, never their members. So a change to the
members of all types goes through every operation of a binder: the answers and the cache are those
of the unchanged binder with the change made to them.
-/

namespace Splice

variable {α β σ : Type} {change : Member → Member} {image : Method → Method}
variable {resolve mapped : TypeExpr → Cache → Cached (Option Descriptor)} {scope : Scope}
variable {left right : Module}

/-! ## Types -/

namespace Descriptor

mutual

/-- The type with each of its members changed, and those of the types that it is made of. -/
def mapMembers (change : Member → Member) : Descriptor → Descriptor
  | declared header none => declared { header with members := header.members.map change } none
  | declared header (some base) =>
    declared { header with members := header.members.map change } (base.mapMembers change)
  | closed definition arguments =>
    closed (definition.mapMembers change) (mapEach change arguments)
  | modified element modifier none => modified (element.mapMembers change) modifier none
  | modified element modifier (some base) =>
    modified (element.mapMembers change) modifier (base.mapMembers change)

def mapEach (change : Member → Member) : List Descriptor → List Descriptor
  | [] => []
  | descriptor :: rest => descriptor.mapMembers change :: mapEach change rest

end

@[simp] theorem mapEach_eq_map (types : List Descriptor) :
    mapEach change types = types.map (mapMembers change) := by
  induction types with
  | nil => rfl
  | cons type rest ih => rw [mapEach, ih, List.map_cons]

theorem mapMembers_declared (header : Header) (base : Option Descriptor) :
    (declared header base).mapMembers change =
      declared { header with members := header.members.map change }
        (base.map (mapMembers change)) := by
  cases base <;> rfl

theorem mapMembers_modified (element : Descriptor) (modifier : String) (base : Option Descriptor) :
    (modified element modifier base).mapMembers change =
      modified (element.mapMembers change) modifier (base.map (mapMembers change)) := by
  cases base <;> rfl

mutual

@[simp] theorem fullName_mapMembers (type : Descriptor) :
    (type.mapMembers change).fullName = type.fullName := by
  cases type with
  | declared header base =>
      rw [mapMembers_declared]
      rfl
  | closed definition arguments =>
      rw [mapMembers, fullName, fullName, fullName_mapMembers definition,
        fullNames_mapEach arguments]
  | modified element modifier base =>
      rw [mapMembers_modified, fullName, fullName, fullName_mapMembers element]

theorem fullNames_mapEach (types : List Descriptor) :
    fullNames (mapEach change types) = fullNames types := by
  cases types with
  | nil => rfl
  | cons type rest =>
      rw [mapEach, fullNames, fullNames, fullName_mapMembers type, fullNames_mapEach rest]

end

mutual

theorem mapMembers_id (type : Descriptor) : type.mapMembers id = type := by
  cases type with
  | declared header base =>
      cases base with
      | none => rw [mapMembers, List.map_id]
      | some base => rw [mapMembers, List.map_id, mapMembers_id base]
  | closed definition arguments => rw [mapMembers, mapMembers_id definition, mapEach_id arguments]
  | modified element modifier base =>
      cases base with
      | none => rw [mapMembers, mapMembers_id element]
      | some base => rw [mapMembers, mapMembers_id element, mapMembers_id base]

theorem mapEach_id (types : List Descriptor) : mapEach id types = types := by
  cases types with
  | nil => rfl
  | cons type rest => rw [mapEach, mapMembers_id type, mapEach_id rest]

end

@[simp] theorem arity_mapMembers (type : Descriptor) :
    (type.mapMembers change).arity = type.arity := by
  cases type with
  | declared header base => rw [mapMembers_declared]; rfl
  | closed definition arguments => rfl
  | modified element modifier base => rw [mapMembers_modified]; rfl

@[simp] theorem markers_mapMembers (type : Descriptor) :
    (type.mapMembers change).markers = type.markers := by
  cases type with
  | declared header base => rw [mapMembers_declared]; rfl
  | closed definition arguments => exact markers_mapMembers definition
  | modified element modifier base => rw [mapMembers_modified]; rfl

theorem members_mapMembers (type : Descriptor) :
    (type.mapMembers change).members = type.members.map change := by
  cases type with
  | declared header base => rw [mapMembers_declared]; rfl
  | closed definition arguments => exact members_mapMembers definition
  | modified element modifier base => rw [mapMembers_modified]; rfl

theorem bases_mapMembers (type : Descriptor) :
    (type.mapMembers change).bases = type.bases.map (mapMembers change) := by
  cases type with
  | declared header base =>
      cases base with
      | none => rfl
      | some base => rw [mapMembers, bases, bases, bases_mapMembers base, List.map_cons]
  | closed definition arguments => exact bases_mapMembers definition
  | modified element modifier base =>
      cases base with
      | none => rfl
      | some base => rw [mapMembers, bases, bases, bases_mapMembers base, List.map_cons]

theorem close_mapMembers (definition : Descriptor) (types : List Descriptor) :
    (definition.mapMembers change).close (types.map (mapMembers change)) =
      (definition.close types).map (mapMembers change) := by
  rw [close, close, arity_mapMembers, fullName_mapMembers, List.length_map]
  split
  · rfl
  · rw [Except.map, mapMembers, mapEach_eq_map]

end Descriptor

open Descriptor (mapMembers)

/-! ## Scopes -/

namespace Assembly

def mapMembers (change : Member → Member) (assembly : Assembly) : Assembly :=
  { assembly with types := assembly.types.map (Descriptor.mapMembers change) }

theorem get?_mapMembers (assembly : Assembly) (name : String) :
    (assembly.mapMembers change).get? name =
      (assembly.get? name).map (Descriptor.mapMembers change) := by
  rw [get?, get?, mapMembers, List.find?_map]
  congr 2
  funext type
  rw [Function.comp_apply, Descriptor.fullName_mapMembers]

theorem add_mapMembers (assembly : Assembly) (type : Descriptor) :
    (assembly.mapMembers change).add (type.mapMembers change) =
      (assembly.add type).mapMembers change := by
  have others (other : Descriptor) :
      ((other.mapMembers change).fullName != (type.mapMembers change).fullName) =
        (other.fullName != type.fullName) := by
    rw [Descriptor.fullName_mapMembers, Descriptor.fullName_mapMembers]
  simp only [add, mapMembers, List.filter_map, Function.comp_def, others, List.map_cons]

end Assembly

def Cache.mapMembers (change : Member → Member) (cache : Cache) : Cache :=
  cache.map fun entry => (entry.1, entry.2.mapMembers change)

theorem Cache.lookup_mapMembers (cache : Cache) (name : String) :
    (cache.mapMembers change).lookup name =
      (cache.lookup name).map (Descriptor.mapMembers change) := by
  induction cache with
  | nil => rfl
  | cons entry rest ih =>
      obtain ⟨key, type⟩ := entry
      change ((key, type.mapMembers change) :: Cache.mapMembers change rest).lookup name = _
      rw [lookup_cons, lookup_cons, ih]
      split <;> rfl

namespace Scope

def mapMembers (change : Member → Member) (scope : Scope) : Scope where
  builtin name := (scope.builtin name).map (Descriptor.mapMembers change)
  own := scope.own.mapMembers change
  dependencies := scope.dependencies.map (Assembly.mapMembers change)

theorem lookup_mapMembers (scope : Scope) (name : String) :
    (scope.mapMembers change).lookup name =
      (scope.lookup name).map (Descriptor.mapMembers change) := by
  have elsewhere : (scope.dependencies.map (Assembly.mapMembers change)).findSome? (·.get? name) =
      (scope.dependencies.findSome? (·.get? name)).map (Descriptor.mapMembers change) := by
    rw [List.findSome?_map, List.map_findSome?]
    congr 1
    funext assembly
    exact assembly.get?_mapMembers name
  rw [lookup, lookup, Option.map_or, Option.map_or, ← elsewhere, ← Assembly.get?_mapMembers]
  rfl

/-! ## Resolutions -/

/-- The answer and the cache of a resolution with the change made to both. -/
def mapCached (change : Member → Member) (answers : α → α) (result : Cached (Option α)) :
    Cached (Option α) :=
  (result.1.map (Option.map answers), result.2.mapMembers change)

theorem mapCached_andThen {answers : α → α} {others : β → β} {first : Cached (Option α)}
    {next following : α → Cache → Cached (Option β)}
    (goesOn : ∀ value cache, following (answers value) (Cache.mapMembers change cache) =
      mapCached change others (next value cache)) :
    andThen (mapCached change answers first) following =
      mapCached change others (andThen first next) := by
  obtain ⟨error | _ | value, between⟩ := first
  · rfl
  · rfl
  · exact goesOn value between

theorem mapCached_keep (strict : Bool) (key : String) (result : Cached (Option Descriptor)) :
    keep strict key (mapCached change (Descriptor.mapMembers change) result) =
      mapCached change (Descriptor.mapMembers change) (keep strict key result) := by
  obtain ⟨error | _ | type, cache⟩ := result
  · rfl
  · cases strict <;> rfl
  · -- What is kept already is the answer, and it is there before the change just if it is after.
    have same : (cache.mapMembers change).lookup key = _ := cache.lookup_mapMembers key
    cases known : cache.lookup key with
    | some earlier =>
        rw [known] at same
        simp only [mapCached, Except.map, Option.map_some, keep, same, known]
    | none =>
        rw [known] at same
        simp only [mapCached, Except.map, Option.map_some, Option.map_none, keep, same, known]
        rfl

/-- The one resolution answers as the other does, with the change made. -/
def Commutes (change : Member → Member)
    (mapped resolve : TypeExpr → Cache → Cached (Option Descriptor)) : Prop :=
  ∀ expr cache, mapped expr (Cache.mapMembers change cache) =
    mapCached change (Descriptor.mapMembers change) (resolve expr cache)

theorem Commutes.resolveEach (commutes : Commutes change mapped resolve) (exprs : List TypeExpr)
    (cache : Cache) :
    Scope.resolveEach mapped exprs (cache.mapMembers change) =
      mapCached change (List.map (Descriptor.mapMembers change))
        (Scope.resolveEach resolve exprs cache) := by
  induction exprs generalizing cache with
  | nil => rfl
  | cons expr rest ih =>
      rw [resolveEach_cons, resolveEach_cons, commutes]
      apply mapCached_andThen
      intro type between
      rw [ih]
      apply mapCached_andThen
      intro types after
      rfl

theorem Commutes.resolveParts (commutes : Commutes change mapped resolve) (expr : TypeExpr)
    (cache : Cache) :
    (scope.mapMembers change).resolveParts mapped expr (cache.mapMembers change) =
      mapCached change (Descriptor.mapMembers change) (scope.resolveParts resolve expr cache) := by
  rw [Scope.resolveParts, Scope.resolveParts]
  cases expr.shape with
  | application element arguments =>
      dsimp only
      rw [resolveApplication_eq, resolveApplication_eq, commutes]
      apply mapCached_andThen
      intro definition between
      rw [commutes.resolveEach]
      apply mapCached_andThen
      intro types after
      rw [Descriptor.close_mapMembers]
      cases definition.close types <;> rfl
  | modification element modifier =>
      dsimp only
      rw [resolveModification_eq, resolveModification_eq, commutes]
      apply mapCached_andThen
      intro type between
      rw [mapCached, Except.map, Option.map_some, Descriptor.mapMembers_modified,
        lookup_mapMembers]
      split <;> rfl
  | plain =>
      rw [lookup_mapMembers]
      rfl

theorem resolveWithin_mapMembers (scope : Scope) (strict : Bool) (depth : Nat) :
    Commutes change ((scope.mapMembers change).resolveWithin strict depth)
      (scope.resolveWithin strict depth) := by
  induction depth with
  | zero => exact fun _ _ => rfl
  | succ depth ih =>
      intro expr cache
      have same : (cache.mapMembers change).lookup expr.key = _ := cache.lookup_mapMembers expr.key
      cases known : cache.lookup expr.key with
      | some type =>
          rw [known] at same
          rw [resolveWithin_of_known same, resolveWithin_of_known known]
          rfl
      | none =>
          rw [known] at same
          rw [resolveWithin_of_unknown same, resolveWithin_of_unknown known, ih.resolveParts,
            mapCached_keep]

end Scope

/-! ## Binders -/

namespace TypeDecl

def mapMethods (image : Method → Method) (decl : TypeDecl) : TypeDecl :=
  { decl with methods := decl.methods.map image }

end TypeDecl

def Module.mapMethods (image : Method → Method) (module : Module) : Module :=
  { module with types := module.types.map (TypeDecl.mapMethods image) }

namespace Binder

def mapMembers (change : Member → Member) (binder : Binder) : Binder where
  scope := binder.scope.mapMembers change
  cache := binder.cache.mapMembers change

theorem mapMembers_id (binder : Binder) : binder.mapMembers id = binder := by
  have types : Descriptor.mapMembers id = id := funext Descriptor.mapMembers_id
  have assemblies : Assembly.mapMembers id = id := by
    funext assembly
    rw [Assembly.mapMembers, types, List.map_id]
    rfl
  have cache : binder.cache.map (fun entry => (entry.1, entry.2.mapMembers id)) = binder.cache := by
    rw [types]
    exact List.map_id _
  rw [mapMembers, Scope.mapMembers, Cache.mapMembers, cache, assemblies, types]
  simp only [Option.map_id, List.map_id, id_eq]

theorem resolve_mapMembers (binder : Binder) (strict : Bool) (expr : TypeExpr) :
    (binder.mapMembers change).resolve strict expr =
      ((binder.resolve strict expr).1.map (Option.map (Descriptor.mapMembers change)),
        (binder.resolve strict expr).2.mapMembers change) := by
  have mapped : (binder.scope.mapMembers change).resolve strict expr
      (binder.cache.mapMembers change) = _ :=
    binder.scope.resolveWithin_mapMembers strict Scope.depthLimit expr binder.cache
  apply Prod.ext
  · exact (congrArg Prod.fst mapped :)
  · exact (congrArg (fun result => Binder.mk (binder.scope.mapMembers change) result.2) mapped :)

theorem require_mapMembers (binder : Binder) (expr : TypeExpr) :
    (binder.mapMembers change).require expr =
      ((binder.require expr).1.map (Descriptor.mapMembers change),
        (binder.require expr).2.mapMembers change) := by
  rw [require, resolve_mapMembers, require]
  obtain ⟨error | _ | type, after⟩ := binder.resolve true expr <;> rfl

/-- Names of types do not change with their members. -/
theorem requireNames_mapMembers (binder : Binder) (exprs : List TypeExpr) :
    (binder.mapMembers change).requireNames exprs =
      ((binder.requireNames exprs).1, (binder.requireNames exprs).2.mapMembers change) := by
  induction exprs generalizing binder with
  | nil => rfl
  | cons expr rest ih =>
      rw [requireNames, require_mapMembers, requireNames]
      obtain ⟨error | type, between⟩ := binder.require expr
      · rfl
      · dsimp only [Except.map]
        rw [ih, Descriptor.fullName_mapMembers]
        obtain ⟨error | names, after⟩ := between.requireNames rest <;> rfl

/-! ## Methods -/

/-- The change leaves alone what members are found by. -/
structure KeepsSignatures (change : Member → Member) : Prop where
  sameSignature : ∀ member other : Member,
    (change member).sameSignature other = member.sameSignature other
  isVirtual : ∀ member : Member, (change member).isVirtual = member.isVirtual

/-- A method is matched by a signature. -/
theorem memberOf?_eq_find? (type : Descriptor) (method : Method) (names : List String) :
    memberOf? type method names =
      type.members.find? (·.sameSignature { method.toMember with parameters := names }) := rfl

theorem memberOf?_mapMembers (keeps : KeepsSignatures change) (type : Descriptor)
    (method : Method) (names : List String) :
    memberOf? (type.mapMembers change) method names =
      (memberOf? type method names).map change := by
  rw [memberOf?_eq_find?, memberOf?_eq_find?, Descriptor.members_mapMembers, List.find?_map]
  simp only [Function.comp_def, keeps.sameSignature]

theorem resolveMethod_mapMembers (keeps : KeepsSignatures change) (binder : Binder)
    (method : Method) (decl : TypeDecl) :
    (binder.mapMembers change).resolveMethod method decl =
      ((binder.resolveMethod method decl).1.map (Option.map fun found =>
          (found.1.mapMembers change, change found.2)),
        (binder.resolveMethod method decl).2.mapMembers change) := by
  rw [resolveMethod, resolve_mapMembers, resolveMethod]
  obtain ⟨error | _ | type, between⟩ := binder.resolve false decl.toExpr
  · rfl
  · rfl
  · dsimp only [Except.map, Option.map_some]
    rw [requireNames_mapMembers]
    generalize between.requireNames (method.parameters.map (·.type)) = required
    obtain ⟨error | names, after⟩ := required
    · rfl
    · dsimp only
      rw [memberOf?_mapMembers keeps, Option.map_map, Option.map_map]
      rfl

theorem performAll_mapMembers (keeps : KeepsSignatures change) (binder : Binder)
    (calls : List Call) :
    (binder.mapMembers change).performAll calls = (binder.performAll calls).mapMembers change := by
  induction calls generalizing binder with
  | nil => rfl
  | cons call rest ih =>
      have here : (binder.mapMembers change).perform call =
          (binder.perform call).mapMembers change := by
        cases call with
        | resolve strict expr => rw [perform, resolve_mapMembers, perform]
        | resolveMethod method decl => rw [perform, resolveMethod_mapMembers keeps, perform]
      change ((binder.mapMembers change).perform call).performAll rest = _
      rw [here, ih]
      rfl

/-! ## Describing a module -/

/-- The change to the methods shows in the members made from them. -/
def Matches (image : Method → Method) (change : Member → Member) : Prop :=
  ∀ method, (image method).toMember = change method.toMember

theorem declare_mapMembers (corresponds : Matches image change) (binder : Binder) (decl : TypeDecl)
    (base : Option Descriptor) :
    (binder.mapMembers change).declare (decl.mapMethods image)
        (base.map (Descriptor.mapMembers change)) =
      (binder.declare decl base).mapMembers change := by
  have members : (decl.methods.map image).map Method.toMember =
      (decl.methods.map Method.toMember).map change := by
    rw [List.map_map, List.map_map]
    exact List.map_congr_left fun method _ => corresponds method
  have type : Descriptor.declared ((decl.mapMethods image).header binder.scope.own.name)
        (base.map (Descriptor.mapMembers change)) =
      (Descriptor.declared (decl.header binder.scope.own.name) base).mapMembers change := by
    rw [Descriptor.mapMembers_declared, TypeDecl.header, TypeDecl.mapMethods, members]
    rfl
  rw [declare, declare]
  dsimp only [mapMembers, Scope.mapMembers]
  rw [← Assembly.add_mapMembers, ← type]
  rfl

theorem baseOf_mapMembers (binder : Binder) (decl : TypeDecl) :
    (binder.mapMembers change).baseOf (decl.mapMethods image) =
      ((binder.baseOf decl).1.map (Option.map (Descriptor.mapMembers change)),
        (binder.baseOf decl).2.mapMembers change) := by
  have same : (decl.mapMethods image).base = decl.base := rfl
  rw [baseOf, baseOf, same]
  cases decl.base with
  | none => rfl
  | some base =>
      dsimp only
      rw [resolve_mapMembers]
      obtain ⟨error | _ | type, after⟩ := binder.resolve false base <;> rfl

theorem describeReady_mapMembers (corresponds : Matches image change) (binder : Binder)
    (decls : List TypeDecl) :
    (binder.mapMembers change).describeReady (decls.map (TypeDecl.mapMethods image)) =
      ((binder.describeReady decls).1.map (TypeDecl.mapMethods image),
        (binder.describeReady decls).2.mapMembers change) := by
  induction decls generalizing binder with
  | nil => rfl
  | cons decl rest ih =>
      rw [List.map_cons, describeReady, baseOf_mapMembers, describeReady]
      obtain ⟨_ | base, between⟩ := binder.baseOf decl
      · dsimp only [Option.map]
        rw [ih]
        rfl
      · dsimp only [Option.map_some]
        rw [declare_mapMembers corresponds, ih]

theorem foldl_declare_mapMembers (corresponds : Matches image change) (binder : Binder)
    (decls : List TypeDecl) :
    (decls.map (TypeDecl.mapMethods image)).foldl (fun binder decl => binder.declare decl none)
        (binder.mapMembers change) =
      (decls.foldl (fun binder decl => binder.declare decl none) binder).mapMembers change := by
  induction decls generalizing binder with
  | nil => rfl
  | cons decl rest ih =>
      have first : (binder.mapMembers change).declare (decl.mapMethods image) none = _ :=
        declare_mapMembers corresponds binder decl none
      rw [List.map_cons, List.foldl_cons, List.foldl_cons, first, ih]

theorem describe_mapMembers (corresponds : Matches image change) (binder : Binder)
    (decls : List TypeDecl) :
    (binder.mapMembers change).describe (decls.map (TypeDecl.mapMethods image)) =
      (binder.describe decls).mapMembers change := by
  induction binder, decls using describe.induct with
  | case1 binder decls left between ready shrinks ih =>
      rw [describe, describe, describeReady_mapMembers corresponds, ready]
      dsimp only
      rw [List.length_map, List.length_map, if_pos shrinks, if_pos shrinks, ih]
  | case2 binder decls left between ready stuck =>
      rw [describe, describe, describeReady_mapMembers corresponds, ready]
      dsimp only
      rw [List.length_map, List.length_map, if_neg stuck, if_neg stuck,
        foldl_declare_mapMembers corresponds]

/-- Modules that are the same once their methods are changed have binders that are the same once
their members are. -/
theorem ofModule_congr (corresponds : Matches image change) (env : Environment σ)
    (directories : List String) (world : σ)
    (same : left.mapMethods image = right.mapMethods image) :
    (ofModule env directories left world).2 = (ofModule env directories right world).2 ∧
      (ofModule env directories left world).1.map (mapMembers change) =
        (ofModule env directories right world).1.map (mapMembers change) := by
  have names : left.name = right.name := (congrArg Module.name same :)
  have references : left.references = right.references := (congrArg Module.references same :)
  have paths : left.directory? = right.directory? := (congrArg Module.directory? same :)
  have types : left.types.map (TypeDecl.mapMethods image) =
    right.types.map (TypeDecl.mapMethods image) := (congrArg Module.types same :)
  rw [ofModule, ofModule, names, references, paths]
  dsimp only
  split
  next => exact ⟨rfl, rfl⟩
  next dependencies ended _ =>
    refine ⟨rfl, ?_⟩
    rw [Except.map, Except.map, ← describe_mapMembers corresponds, types,
      describe_mapMembers corresponds]

end Binder

end Splice
