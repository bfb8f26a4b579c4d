import Splice.Proofs.Binding.Caching
import Splice.Proofs.Binding.LookupOrder

/-!
# Naming

A type is known by its own full name. Whatever a resolution keeps, and whatever it answers, it has
made in one of three ways: by looking a plain name up, by closing a definition over arguments, and
by modifying an element. A property that all three uphold holds of every entry of the cache in every
state of a binder. Two such properties are that a type goes by the name under which it is kept,
unless that has blanks in it, and that the expression by which a module refers to the type leads
back to it.
-/

namespace Splice

variable {scope : Scope} {strict : Bool} {holds : String → Descriptor → Prop} {depth : Nat}
variable {before between cache : Cache} {key name : String} {type definition : Descriptor}
variable {types arguments : List Descriptor} {expr element : TypeExpr} {exprs : List TypeExpr}
variable {binder after : Binder} {decls : List TypeDecl} {α β : Type}
variable {resolve : TypeExpr → Cache → Cached (Option Descriptor)}
variable {σ : Type} {env : Environment σ} {directories : List String} {module : Module}
variable {world ended : σ}

/-! ## What resolutions uphold -/

/-- The property holds of every entry. -/
def Cache.Holds (cache : Cache) (holds : String → Descriptor → Prop) : Prop :=
  ∀ key type, cache.lookup key = some type → holds key type

theorem Cache.Holds.nil : Cache.Holds [] holds := by
  intro name found known
  cases known

theorem Cache.Holds.cons (here : holds key type) (rest : cache.Holds holds) :
    Cache.Holds ((key, type) :: cache) holds := by
  intro name found known
  rw [Cache.lookup_cons] at known
  split_ifs at known with same
  · cases known
    rwa [same]
  · exact rest name found known

namespace Scope

open Cache (Within)

/-- Each of the ways to make a type upholds the property between names and types. -/
structure Upholds (scope : Scope) (holds : String → Descriptor → Prop) : Prop where
  plain : ∀ {expr : TypeExpr} {type : Descriptor}, expr.shape = .plain →
    scope.lookup expr.key = some type → holds expr.key type
  application : ∀ {expr element : TypeExpr} {arguments : List TypeExpr} {definition : Descriptor}
    {types : List Descriptor} {type : Descriptor}, expr.shape = .application element arguments →
    holds element.key definition →
    List.Forall₂ (fun (argument : TypeExpr) type => holds argument.key type) arguments types →
    definition.close types = .ok type → holds expr.key type
  modification : ∀ {expr : TypeExpr} {element modifier : String} {type : Descriptor}
    (base : Option Descriptor), expr.shape = .modification element modifier →
    holds (TypeExpr.named element).key type → holds expr.key (.modified type modifier base)

/-- The cache has kept all that it had, the property holds of it, and the value is good. -/
structure Keeps (holds : String → Descriptor → Prop) (before : Cache) (good : α → Prop)
    (result : Cached (Option α)) : Prop where
  within : Within before result.2
  holds : result.2.Holds holds
  good : ∀ value, result.1 = .ok (some value) → good value

namespace Keeps

variable {good : α → Prop} {goodNext : β → Prop}

theorem here (held : before.Holds holds) (answer : Except Error (Option α))
    (isGood : ∀ value, answer = .ok (some value) → good value) :
    Keeps holds before good (answer, before) := ⟨.refl before, held, isGood⟩

theorem andThen {result : Cached (Option α)} {next : α → Cache → Cached (Option β)}
    (keeps : Keeps holds before good result)
    (goesOn : ∀ value between, Cache.Holds between holds → good value →
      Keeps holds between goodNext (next value between)) :
    Keeps holds before goodNext (Scope.andThen result next) := by
  obtain ⟨within, held, isGood⟩ := keeps
  obtain ⟨error | _ | value, between⟩ := result
  · exact ⟨within, held, nofun⟩
  · exact ⟨within, held, nofun⟩
  · obtain ⟨withinNext, heldNext, isGoodNext⟩ := goesOn value between held (isGood value rfl)
    exact ⟨within.trans withinNext, heldNext, isGoodNext⟩

theorem keep {result : Cached (Option Descriptor)} (keeps : Keeps holds before (holds key) result)
    (strict : Bool) : Keeps holds before (holds key) (Scope.keep strict key result) := by
  obtain ⟨within, held, isGood⟩ := keeps
  obtain ⟨error | _ | type, cache⟩ := result
  · exact ⟨within, held, nofun⟩
  · cases strict <;> exact ⟨within, held, nofun⟩
  · rw [Scope.keep]
    split
    next earlier known =>
      refine ⟨within, held, ?_⟩
      rintro _ ⟨⟩
      exact held key earlier known
    next unknown =>
      have kept := isGood type rfl
      refine ⟨within.trans (.cons_right unknown type), held.cons kept, ?_⟩
      rintro _ ⟨⟩
      exact kept

end Keeps

theorem keeps_resolveEach
    (keeps : ∀ (expr : TypeExpr) (cache : Cache), cache.Holds holds →
      Keeps holds cache (holds expr.key) (resolve expr cache)) (held : before.Holds holds) :
    Keeps holds before (List.Forall₂ (fun (expr : TypeExpr) type => holds expr.key type) exprs)
      (resolveEach resolve exprs before) := by
  induction exprs generalizing before with
  | nil =>
      apply Keeps.here held
      rintro _ ⟨⟩
      exact .nil
  | cons expr rest ih =>
      rw [resolveEach_cons]
      apply (keeps expr before held).andThen
      intro type between heldBetween here
      apply (ih heldBetween).andThen
      intro types after heldAfter others
      apply Keeps.here heldAfter
      rintro _ ⟨⟩
      exact .cons here others

theorem keeps_resolveParts (upholds : scope.Upholds holds)
    (keeps : ∀ (expr : TypeExpr) (cache : Cache), cache.Holds holds →
      Keeps holds cache (holds expr.key) (resolve expr cache)) (held : before.Holds holds) :
    Keeps holds before (holds expr.key) (scope.resolveParts resolve expr before) := by
  rw [resolveParts]
  split
  next element arguments shape =>
    rw [resolveApplication_eq]
    apply (keeps element before held).andThen
    intro definition between heldBetween elementHolds
    apply (keeps_resolveEach keeps heldBetween).andThen
    intro types after heldAfter argumentsHold
    apply Keeps.here heldAfter
    intro answer closed
    obtain ⟨type, closes, same⟩ := map_eq_ok_iff.mp closed
    cases same
    exact upholds.application shape elementHolds argumentsHold closes
  next element modifier shape =>
    rw [resolveModification_eq]
    apply (keeps (.named element) before held).andThen
    intro type between heldBetween elementHolds
    apply Keeps.here heldBetween
    rintro _ ⟨⟩
    exact upholds.modification _ shape elementHolds
  next shape =>
    apply Keeps.here held
    intro type found
    exact upholds.plain shape (Except.ok.inj found)

/-- A resolution only adds to the cache. What each way to make a type upholds then holds of the
cache and of the answer. -/
theorem keeps_resolveWithin (upholds : scope.Upholds holds) (strict : Bool) (depth : Nat)
    (expr : TypeExpr) (held : cache.Holds holds) :
    Keeps holds cache (holds expr.key) (scope.resolveWithin strict depth expr cache) := by
  induction depth generalizing expr cache with
  | zero => exact .here held _ nofun
  | succ depth ih =>
      cases known : cache.lookup expr.key with
      | some type =>
          rw [resolveWithin_of_known known]
          apply Keeps.here held
          rintro _ ⟨⟩
          exact held expr.key type known
      | none =>
          rw [resolveWithin_of_unknown known]
          exact (keeps_resolveParts upholds (fun expr cache held => ih expr held) held).keep strict

theorem lookup_of_keep {result : Cached (Option Descriptor)}
    (kept : (keep strict key result).1 = .ok (some type)) :
    (keep strict key result).2.lookup key = some type := by
  obtain ⟨error | _ | found, after⟩ := result
  · cases kept
  · cases strict <;> cases kept
  · rw [keep] at kept ⊢
    split at kept
    next earlier known =>
      cases kept
      exact known
    next unknown =>
      cases kept
      exact List.lookup_cons_self

/-- What is resolved is kept under the key of the expression. -/
theorem lookup_of_resolveWithin
    (resolved : (scope.resolveWithin strict depth expr cache).1 = .ok (some type)) :
    (scope.resolveWithin strict depth expr cache).2.lookup expr.key = some type := by
  cases depth with
  | zero => cases resolved
  | succ depth =>
      cases known : cache.lookup expr.key with
      | some found =>
          rw [resolveWithin_of_known known] at resolved ⊢
          cases resolved
          exact known
      | none =>
          rw [resolveWithin_of_unknown known] at resolved ⊢
          exact lookup_of_keep resolved

end Scope

namespace Binder

theorem keeps_resolve (upholds : binder.scope.Upholds holds) (held : binder.cache.Holds holds)
    (strict : Bool) (expr : TypeExpr) :
    Scope.Keeps holds binder.cache (holds expr.key)
      ((binder.resolve strict expr).1, (binder.resolve strict expr).2.cache) :=
  Scope.keeps_resolveWithin upholds strict Scope.depthLimit expr held

theorem keeps_resolveAll (upholds : binder.scope.Upholds holds) (held : binder.cache.Holds holds)
    (calls : List (Bool × TypeExpr)) :
    Cache.Within binder.cache (binder.resolveAll calls).cache ∧
      (binder.resolveAll calls).cache.Holds holds := by
  induction calls generalizing binder with
  | nil => exact ⟨.refl _, held⟩
  | cons call rest ih =>
      have first := keeps_resolve upholds held call.1 call.2
      have others : Cache.Within (binder.resolve call.1 call.2).2.cache
          ((binder.resolve call.1 call.2).2.resolveAll rest).cache ∧ _ := ih upholds first.holds
      exact ⟨first.within.trans others.1, others.2⟩

end Binder

/-! ## Keys -/

namespace TypeExpr

/-- A tight key of an application is made of the keys of its parts. -/
theorem key_of_application (shape : expr.shape = .application element exprs)
    (tight : TypeName.IsTight expr.key.toList) :
    expr.key.toList =
      element.key.toList ++ '[' :: [','].intercalate (exprs.map (·.key.toList)) ++ [']'] := by
  cases expr with
  | applied =>
      cases shape
      exact toList_key_applied
  | named name =>
      have runtime := TypeName.IsRuntime.of_key (.named name)
      obtain ⟨_, definition, parts, split, rfl, rfl⟩ := split_of_shapeOfName shape
      obtain ⟨elementRuntime, partsRuntime⟩ := runtime.of_application split
      have definitionKey : (named (String.ofList definition)).key.toList = definition := by
        rw [toList_key_named, String.toList_ofList, elementRuntime.map_eq_self]
      obtain ⟨whole, partsTight⟩ := tight.of_application split
      have partsKeys : (parts.map (TypeName.read id)).map (·.key.toList) = parts := by
        have written : ∀ part ∈ parts, (TypeName.read id part).key.toList = part :=
          fun part member => TypeName.normal_eq_self (partsRuntime part member)
            (partsTight part member)
        rw [List.map_map]
        exact (List.map_congr_left written).trans (List.map_id' _)
      rw [definitionKey, partsKeys]
      exact whole

/-- The key of a modification is the key of its element with the modifier behind it. -/
theorem key_of_modification {element modifier : String}
    (shape : expr.shape = .modification element modifier) :
    expr.key.toList = (named element).key.toList ++ modifier.toList ∧
      TypeName.IsModifier modifier.toList := by
  cases expr with
  | applied => cases shape
  | named name =>
      have runtime := TypeName.IsRuntime.of_key (.named name)
      change shapeOfName (named name).key = _ at shape
      rw [shapeOfName] at shape
      split at shape
      next front back split =>
        cases shape
        have elementRuntime := runtime.of_modifier split
        obtain ⟨same, _, isModifier⟩ := TypeName.splitModifier_eq_some_iff.mp split
        have elementKey : (named (String.ofList front)).key.toList = front := by
          rw [toList_key_named, String.toList_ofList, elementRuntime.map_eq_self]
        rw [elementKey, String.toList_ofList]
        exact ⟨same, isModifier⟩
      · split at shape <;> cases shape

end TypeExpr

/-! ## Names of types -/

namespace Assembly

theorem fullName_of_get? {assembly : Assembly} (found : assembly.get? name = some type) :
    type.fullName = name := by
  simpa using List.find?_some found

end Assembly

namespace Scope

/-- Every built-in type goes by its full name. -/
def IsTruthful (scope : Scope) : Prop :=
  ∀ name type, scope.builtin name = some type → type.fullName = name

theorem fullName_of_lookup (truthful : scope.IsTruthful) (found : scope.lookup name = some type) :
    type.fullName = name := by
  rw [lookup, Option.or_eq_some_iff] at found
  rcases found with found | ⟨_, found⟩
  · exact truthful name type found
  · rw [Option.or_eq_some_iff] at found
    rcases found with found | ⟨_, found⟩
    · exact Assembly.fullName_of_get? found
    · obtain ⟨assembly, _, found⟩ := List.exists_of_findSome?_eq_some found
      exact Assembly.fullName_of_get? found

end Scope

namespace Descriptor

theorem toList_fullName_closed :
    (closed definition arguments).fullName.toList = definition.fullName.toList ++
      '[' :: [','].intercalate (arguments.map (·.fullName.toList)) ++ [']'] := by
  simp [fullName, String.toList_intercalate, Function.comp_def]

theorem closed_of_close (closes : definition.close arguments = .ok type) :
    type = closed definition arguments ∧ arguments.length = definition.arity ∧
      definition.arity ≠ 0 := by
  rw [close] at closes
  split at closes
  · cases closes
  next fits =>
    cases closes
    rw [not_or, not_not] at fits
    exact ⟨rfl, fits.2.symm, fits.1⟩

end Descriptor

/-- The type goes by the name, unless that has blanks in it. -/
def GoesBy (name : String) (type : Descriptor) : Prop :=
  TypeName.IsBlankFree name.toList → type.fullName = name

/-- The type goes by the name if the text of that is good. -/
def GoesByGood (good : List Char → Prop) (name : String) (type : Descriptor) : Prop :=
  good name.toList → type.fullName = name

variable {good : List Char → Prop}

theorem fullNames_of_goesByGood
    (goBy : List.Forall₂ (fun (expr : TypeExpr) type => GoesByGood good expr.key type) exprs types)
    (each : ∀ expr ∈ exprs, good expr.key.toList) :
    types.map (·.fullName) = exprs.map (·.key) := by
  induction goBy with
  | nil => rfl
  | cons here _ ih =>
      rw [List.map_cons, List.map_cons, here (each _ List.mem_cons_self),
        ih fun expr member => each expr (List.mem_cons_of_mem _ member)]

/-- Types go by their names where these are tight, and the parts of a good name are good. -/
theorem Scope.IsTruthful.upholds_goesByGood (truthful : scope.IsTruthful)
    (tight : ∀ text, good text → TypeName.IsTight text)
    (inner : ∀ part text, part <:+: text → good text → good part) :
    scope.Upholds (GoesByGood good) where
  plain _ found _ := fullName_of_lookup truthful found
  application := by
    intro expr element arguments definition types type shape elementGoesBy argumentsGoBy closes
      isGood
    obtain ⟨rfl, _⟩ := Descriptor.closed_of_close closes
    have written := TypeExpr.key_of_application shape (tight _ isGood)
    rw [written] at isGood
    have elementGood : good element.key.toList := by
      refine inner _ _ ?_ isGood
      exact ((List.prefix_append _ _).trans (List.prefix_append _ _)).isInfix
    have argumentsGood : ∀ argument ∈ arguments, good argument.key.toList := by
      intro argument member
      have listed : argument.key.toList ∈ arguments.map (·.key.toList) :=
        List.mem_map_of_mem member
      refine inner _ _ ((TypeName.infix_intercalate listed).trans ?_) isGood
      exact ⟨element.key.toList ++ ['['], [']'], by simp⟩
    have names : types.map (·.fullName.toList) = arguments.map (·.key.toList) := by
      have same := congrArg (List.map String.toList)
        (fullNames_of_goesByGood argumentsGoBy argumentsGood)
      rwa [List.map_map, List.map_map] at same
    apply String.toList_injective
    rw [Descriptor.toList_fullName_closed, written, elementGoesBy elementGood, names]
  modification := by
    intro expr element modifier type base shape elementGoesBy isGood
    obtain ⟨written, _⟩ := TypeExpr.key_of_modification shape
    apply String.toList_injective
    rw [written] at isGood
    have elementGood := inner _ _ (List.prefix_append _ _).isInfix isGood
    rw [Descriptor.fullName, String.toList_append, elementGoesBy elementGood, written]

theorem Scope.IsTruthful.upholds (truthful : scope.IsTruthful) : scope.Upholds GoesBy :=
  truthful.upholds_goesByGood (fun _ => TypeName.IsBlankFree.isTight)
    fun _ _ part blankFree character member => blankFree character (part.subset member)

/-! ## Well-formed types -/

namespace Descriptor

def isDeclared : Descriptor → Bool
  | declared _ _ => true
  | closed _ _ | modified _ _ _ => false

/-- The type is made of declared types with run-time names. Definitions are closed over as many
arguments as they take. -/
inductive IsFormed : Descriptor → Prop where
  | declared {header : Header} (base : Option Descriptor) :
      TypeName.IsRuntime header.fullName.toList → IsFormed (.declared header base)
  | closed {definition : Descriptor} {arguments : List Descriptor} : IsFormed definition →
      (∀ argument ∈ arguments, IsFormed argument) → arguments.length = definition.arity →
      IsFormed (.closed definition arguments)
  | modified {element : Descriptor} {modifier : String} (base : Option Descriptor) :
      IsFormed element → TypeName.IsModifier modifier.toList →
      IsFormed (.modified element modifier base)

theorem toExprs_eq_map (types : List Descriptor) : toExprs types = types.map toExpr := by
  induction types with
  | nil => rfl
  | cons type rest ih => rw [toExprs, ih, List.map_cons]

/-- The expression by which a module refers to the type leads to the type's full name. -/
theorem IsFormed.key_toExpr (formed : type.IsFormed) : type.toExpr.key = type.fullName := by
  induction formed with
  | declared base runtime =>
      have restored : TypeName.IsRestored TypeName.metadataChar _ := fun character member =>
        TypeName.runtimeChar_metadataChar (runtime character member)
      apply String.toList_injective
      rw [toExpr, TypeExpr.toList_key_named, TypeName.toMetadata, String.toList_map]
      exact restored.map_map
  | @closed definition arguments _ _ _ definitionKey argumentKeys =>
      have keys : (arguments.map toExpr).map (·.key.toList) =
          arguments.map (·.fullName.toList) := by
        rw [List.map_map]
        exact List.map_congr_left fun argument member =>
          congrArg String.toList (argumentKeys argument member)
      apply String.toList_injective
      rw [toExpr, toExprs_eq_map, TypeExpr.toList_key_applied, definitionKey, keys,
        toList_fullName_closed]
  | modified base _ isModifier elementKey =>
      apply String.toList_injective
      rw [toExpr, TypeExpr.toList_key_named, String.toList_append, List.map_append,
        isModifier.map_runtimeChar, fullName, String.toList_append, ← elementKey, TypeExpr.key,
        TypeName.toRuntime, String.toList_map]

end Descriptor

namespace Scope

/-- The types from outside the module are declared ones, each found under its full name. -/
structure IsBuilt (scope : Scope) : Prop where
  truthful : scope.IsTruthful
  builtin : ∀ name type, scope.builtin name = some type → type.isDeclared
  dependencies : ∀ assembly ∈ scope.dependencies, ∀ type ∈ assembly.types, type.isDeclared

theorem IsBuilt.isDeclared_of_lookup (built : scope.IsBuilt)
    (own : ∀ type ∈ scope.own.types, type.isDeclared) (found : scope.lookup name = some type) :
    type.isDeclared := by
  rw [lookup, Option.or_eq_some_iff] at found
  rcases found with found | ⟨_, found⟩
  · exact built.builtin name type found
  · rw [Option.or_eq_some_iff] at found
    rcases found with found | ⟨_, found⟩
    · exact own type (List.mem_of_find?_eq_some found)
    · obtain ⟨assembly, member, found⟩ := List.exists_of_findSome?_eq_some found
      exact built.dependencies assembly member type (List.mem_of_find?_eq_some found)

theorem forall_mem_of_forall₂ {good : Descriptor → Prop}
    (each : List.Forall₂ (fun (_ : TypeExpr) type => good type) exprs types) :
    ∀ type ∈ types, good type := by
  induction each with
  | nil => exact nofun
  | cons here _ ih => exact List.forall_mem_cons.mpr ⟨here, ih⟩

theorem IsBuilt.upholds (built : scope.IsBuilt)
    (own : ∀ type ∈ scope.own.types, type.isDeclared) :
    scope.Upholds fun _ type => type.IsFormed where
  plain := by
    intro expr type _ found
    have declared := built.isDeclared_of_lookup own found
    have named := fullName_of_lookup built.truthful found
    cases type with
    | declared header base =>
        apply Descriptor.IsFormed.declared
        rw [Descriptor.fullName] at named
        rw [named]
        exact .of_key expr
    | closed => cases declared
    | modified => cases declared
  application := by
    intro expr element arguments definition types type _ definitionFormed argumentsFormed closes
    obtain ⟨rfl, fits, _⟩ := Descriptor.closed_of_close closes
    exact .closed definitionFormed (forall_mem_of_forall₂ argumentsFormed) fits
  modification := by
    intro expr element modifier type base shape elementFormed
    exact .modified base elementFormed (TypeExpr.key_of_modification shape).2

end Scope

/-! ## States of a binder -/

namespace Binder

/-- What is upheld while the types of a module are described holds of the cache once they are. -/
theorem Describes.cache_holds (describes : Describes binder decls after)
    (upholds : ∀ own : Assembly, (∀ type ∈ own.types, type.isDeclared) →
      ({ binder.scope with own } : Scope).Upholds holds)
    (own : ∀ type ∈ binder.scope.own.types, type.isDeclared)
    (held : binder.cache.Holds holds) :
    after.cache.Holds holds ∧ ∀ type ∈ after.scope.own.types, type.isDeclared := by
  induction describes with
  | done => exact ⟨held, own⟩
  | @seek _ _ _ _ base _ _ _ ih =>
      exact ih upholds own (keeps_resolve (upholds _ own) held false base).holds
  | @declare binder _ _ _ decl base _ _ ih =>
      apply ih upholds
      · intro type member
        rcases List.mem_cons.mp member with rfl | member
        · rfl
        · exact own type (List.mem_filter.mp member).1
      · exact held

/-- A request to a binder. -/
inductive Call where
  | resolve (strict : Bool) (expr : TypeExpr)
  | resolveMethod (method : Method) (decl : TypeDecl)

def perform (binder : Binder) : Call → Binder
  | .resolve strict expr => (binder.resolve strict expr).2
  | .resolveMethod method decl => (binder.resolveMethod method decl).2

/-- The state after requests one after the other. -/
def performAll (binder : Binder) (calls : List Call) : Binder :=
  calls.foldl perform binder

theorem resolveAll_append (binder : Binder) (first second : List (Bool × TypeExpr)) :
    binder.resolveAll (first ++ second) = (binder.resolveAll first).resolveAll second := by
  induction first generalizing binder with
  | nil => rfl
  | cons call rest ih => exact ih (binder.resolve call.1 call.2).2

theorem snd_require (binder : Binder) (expr : TypeExpr) :
    (binder.require expr).2 = (binder.resolve true expr).2 := by
  rw [require]
  split
  next resolved => rw [resolved]
  next resolved => rw [resolved]
  next resolved => rw [resolved]

theorem exists_resolveAll_requireNames (binder : Binder) (exprs : List TypeExpr) :
    ∃ calls, (binder.requireNames exprs).2 = binder.resolveAll calls := by
  induction exprs generalizing binder with
  | nil => exact ⟨[], rfl⟩
  | cons expr rest ih =>
      have first := snd_require binder expr
      obtain ⟨calls, others⟩ := ih (binder.require expr).2
      rw [requireNames]
      split
      next error between failed =>
        rw [failed] at first
        exact ⟨[(true, expr)], first⟩
      next type between required =>
        rw [required] at first others
        have all : (between.requireNames rest).2 = binder.resolveAll ((true, expr) :: calls) := by
          rw [others, first]
          rfl
        cases named : between.requireNames rest with
        | mk answer final =>
            rw [named] at all
            cases answer <;> exact ⟨(true, expr) :: calls, all⟩

/-- A request comes down to resolutions one after the other. -/
theorem exists_resolveAll_perform (binder : Binder) (call : Call) :
    ∃ calls, binder.perform call = binder.resolveAll calls := by
  cases call with
  | resolve strict expr => exact ⟨[(strict, expr)], rfl⟩
  | resolveMethod method decl =>
      rw [perform, resolveMethod]
      cases resolved : binder.resolve false decl.toExpr with
      | mk answer between =>
          have first : between = binder.resolveAll [(false, decl.toExpr)] :=
            (congrArg Prod.snd resolved).symm
          rcases answer with error | _ | type
          · exact ⟨_, first⟩
          · exact ⟨_, first⟩
          · obtain ⟨calls, others⟩ :=
              exists_resolveAll_requireNames between (method.parameters.map (·.type))
            refine ⟨(false, decl.toExpr) :: calls, ?_⟩
            rw [first] at others
            change _ = (binder.resolveAll [(false, decl.toExpr)]).resolveAll calls
            rw [← others, ← first]
            dsimp only
            split
            next failed => rw [failed]
            next named => rw [named]

theorem exists_resolveAll_performAll (binder : Binder) (calls : List Call) :
    ∃ resolutions, binder.performAll calls = binder.resolveAll resolutions := by
  induction calls generalizing binder with
  | nil => exact ⟨[], rfl⟩
  | cons call rest ih =>
      obtain ⟨first, performed⟩ := exists_resolveAll_perform binder call
      obtain ⟨second, others⟩ := ih (binder.perform call)
      refine ⟨first ++ second, ?_⟩
      rw [resolveAll_append, ← performed, ← others]
      rfl

@[simp] theorem scope_performAll (binder : Binder) (calls : List Call) :
    (binder.performAll calls).scope = binder.scope := by
  obtain ⟨resolutions, same⟩ := exists_resolveAll_performAll binder calls
  rw [same, scope_resolveAll]

/-- What each way to make a type upholds holds of the cache after any requests, and the cache has
lost nothing. -/
theorem holds_performAll (upholds : binder.scope.Upholds holds)
    (held : binder.cache.Holds holds) (calls : List Call) :
    Cache.Within binder.cache (binder.performAll calls).cache ∧
      (binder.performAll calls).cache.Holds holds := by
  obtain ⟨resolutions, same⟩ := exists_resolveAll_performAll binder calls
  rw [same]
  exact keeps_resolveAll upholds held resolutions

/-- What each way to make a type upholds, whatever types are described, holds of the cache in every
state of a binder. -/
theorem cache_holds_performAll (made : ofModule env directories module world = (.ok binder, ended))
    (upholds : ∀ own : Assembly, ({ binder.scope with own } : Scope).Upholds holds)
    (calls : List Call) : (binder.performAll calls).cache.Holds holds := by
  obtain ⟨dependencies, _, describes⟩ := describes_of_ofModule made
  obtain ⟨builtin, same, _⟩ := describes.frame
  have upheld (own : Assembly) : Scope.Upholds ⟨env.builtin ended, own, dependencies⟩ holds := by
    have upheld := upholds own
    dsimp only at upheld
    rwa [builtin, same] at upheld
  have held : binder.cache.Holds holds ∧ _ :=
    describes.cache_holds (fun own _ => upheld own) nofun .nil
  exact (holds_performAll (upholds _) held.1 calls).2

/-- A state of a binder in which types are known by their names. -/
structure KnowsByName (binder : Binder) : Prop where
  /-- An entry neither changes nor goes away. -/
  lasting : ∀ (calls : List Call) (key : String) (type : Descriptor),
    binder.cache.lookup key = some type → (binder.performAll calls).cache.lookup key = some type
  /-- A type goes by the name under which it is kept. -/
  entry : ∀ (key : String) (type : Descriptor), binder.cache.lookup key = some type →
    TypeName.IsBlankFree key.toList → type.fullName = key
  /-- A type that is resolved is kept, and goes by the name by which it is resolved. -/
  answer : ∀ (strict : Bool) (expr : TypeExpr) (type : Descriptor),
    (binder.resolve strict expr).1 = .ok (some type) →
    (binder.resolve strict expr).2.cache.lookup expr.key = some type ∧
      (TypeName.IsBlankFree expr.key.toList → type.fullName = expr.key)
  /-- A definition is closed over as many arguments as it takes, and the name says which. -/
  closed : ∀ (key : String) (definition : Descriptor) (arguments : List Descriptor),
    binder.cache.lookup key = some (.closed definition arguments) →
    arguments.length = definition.arity ∧
      (Descriptor.closed definition arguments).fullName =
        definition.fullName ++ "[" ++ ",".intercalate (arguments.map (·.fullName)) ++ "]"
  /-- The expression by which a module refers to a type resolves to that very type. -/
  again : ∀ (key : String) (type : Descriptor), binder.cache.lookup key = some type →
    TypeName.IsBlankFree key.toList →
    ∀ strict, binder.resolve strict type.toExpr = (.ok (some type), binder)

theorem KnowsByName.of_holds (upholds : binder.scope.Upholds GoesBy)
    (named : binder.cache.Holds GoesBy) (formed : binder.cache.Holds fun _ type => type.IsFormed) :
    binder.KnowsByName where
  lasting calls := (holds_performAll upholds named calls).1
  entry := named
  answer := by
    intro strict expr type resolved
    refine ⟨?_, (keeps_resolve upholds named strict expr).good type resolved⟩
    have found : (binder.scope.resolveWithin strict Scope.depthLimit expr binder.cache).1 =
        .ok (some type) := resolved
    exact Scope.lookup_of_resolveWithin found
  closed := by
    intro key definition arguments known
    cases formed key _ known with
    | closed _ _ fits =>
        refine ⟨fits, ?_⟩
        rw [Descriptor.fullName, Descriptor.fullNames_eq_map]
  again := by
    intro key type known blankFree strict
    have leads : type.toExpr.key = key :=
      (formed key type known).key_toExpr.trans (named key type known blankFree)
    rw [← leads] at known
    have resolved : binder.scope.resolveWithin strict Scope.depthLimit type.toExpr binder.cache =
        (.ok (some type), binder.cache) := Scope.resolveWithin_of_known known
    rw [resolve, Scope.resolve, resolved]

end Binder

/-- The built-in types of a universe are those of its core library. -/
theorem Universe.get?_of_builtin {files : FileTree} {coreName : String} {hidden : List String}
    {current : Universe}
    (found : (environment files coreName hidden).builtin current name = some type) :
    current.core.get? name = some type := by
  change (if name ∈ hidden then none else current.core.get? name) = some type at found
  split at found
  · cases found
  · exact found

namespace Binder

/-- In every state of a binder types are known by their names, if those from outside the module are
declared ones that are found under their full names. -/
theorem knowsByName_performAll
    (made : ofModule env directories module world = (.ok binder, ended))
    (built : binder.scope.IsBuilt) (calls : List Call) : (binder.performAll calls).KnowsByName := by
  obtain ⟨dependencies, found, describes⟩ := describes_of_ofModule made
  obtain ⟨builtin, same, _⟩ := describes.frame
  have builtFirst (own : Assembly) :
      Scope.IsBuilt ⟨env.builtin ended, own, dependencies⟩ := by
    obtain ⟨truthful, declaredBuiltin, declaredDependencies⟩ := built
    rw [Scope.IsTruthful, builtin] at truthful
    rw [builtin] at declaredBuiltin
    rw [same] at declaredDependencies
    exact ⟨truthful, declaredBuiltin, declaredDependencies⟩
  have formed : binder.cache.Holds (fun _ type => type.IsFormed) ∧ _ :=
    describes.cache_holds (fun own declared => (builtFirst own).upholds declared) nofun nofun
  have named : binder.cache.Holds GoesBy ∧ _ :=
    describes.cache_holds (fun own _ => (builtFirst own).truthful.upholds) nofun nofun
  apply KnowsByName.of_holds
  · rw [scope_performAll]
    exact built.truthful.upholds
  · exact (holds_performAll built.truthful.upholds named.1 calls).2
  · exact (holds_performAll (built.upholds formed.2) formed.1 calls).2

/-- An application is kept under its name when an array of it is a parameter. -/
theorem knowsByName_performAll_nullable :
    let method : Method :=
      { name := "Run", parameters := [⟨"all", .named "System.Nullable`1<System.Int32>[]"⟩] }
    let decl : TypeDecl := { space := "System", name := "Object", methods := [method] }
    let state := Sample.bare.performAll [.resolveMethod method decl]
    Sample.bare.scope.IsBuilt ∧ state.KnowsByName ∧
      (state.cache.lookup "System.Nullable`1[System.Int32]").isSome = true := by
  intro method decl state
  have declared : ∀ type ∈ CoreLibrary.assembly.types, type.isDeclared := by decide +kernel
  have core : ∀ name type, Sample.bare.scope.builtin name = some type →
      CoreLibrary.assembly.get? name = some type := by
    intro name type found
    have builtin : (Universe.environment {} "mscorlib" []).builtin .new name = some type := found
    exact Universe.get?_of_builtin builtin
  have built : Sample.bare.scope.IsBuilt := by
    refine ⟨?_, ?_, nofun⟩
    · intro name type found
      exact Assembly.fullName_of_get? (core name type found)
    · intro name type found
      exact declared type (List.mem_of_find?_eq_some (core name type found))
  exact ⟨built, knowsByName_performAll ofModule_bare built _, by decide +kernel⟩

end Binder

end Splice
