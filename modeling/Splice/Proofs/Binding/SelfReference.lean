import Mathlib.Data.List.Nodup
import Splice.Proofs.Binding.Naming

/-!
# References of a module to its own types

A binder describes each type of its module under one name and looks references up under another one.
The second is the reference in the run-time dialect. The first is in that dialect only for nested
types, so a type that is not nested is found by its own reference only if its name reads the same in
both dialects. A reference may also be read as the application of a generic definition, which is
never a type of the module itself.
-/

namespace Splice

variable {σ : Type} {env : Environment σ} {directories : List String} {module : Module}
variable {world ended : σ} {binder : Binder} {scope : Scope} {decl : TypeDecl} {name : String}
variable {expr element : TypeExpr} {arguments : List TypeExpr} {type : Descriptor}

namespace TypeDecl

/-- The descriptor is what the assembly has for the type, with a member for each of its methods. -/
structure IsDescribedBy (decl : TypeDecl) (assembly : String) (type : Descriptor) : Prop where
  declared : type.isDeclared
  fullName : type.fullName = decl.runtimeName
  assembly : type.assembly = assembly
  members : type.members = decl.methods.map Method.toMember

instance (decl : TypeDecl) (assembly : String) (type : Descriptor) :
    Decidable (decl.IsDescribedBy assembly type) :=
  decidable_of_iff (type.isDeclared ∧ type.fullName = decl.runtimeName ∧
      type.assembly = assembly ∧ type.members = decl.methods.map Method.toMember)
    ⟨fun ⟨declared, fullName, assembly, members⟩ => ⟨declared, fullName, assembly, members⟩,
      fun ⟨declared, fullName, assembly, members⟩ => ⟨declared, fullName, assembly, members⟩⟩

theorem isDescribedBy_declared (decl : TypeDecl) (assembly : String) (base : Option Descriptor) :
    decl.IsDescribedBy assembly (.declared (decl.header assembly) base) :=
  ⟨rfl, rfl, rfl, rfl⟩

/-- Nothing but the type goes by the name of its reference, which ends in no modifier. -/
structure IsAlone (decl : TypeDecl) (module : Module) (scope : Scope) : Prop where
  builtin : scope.builtin decl.toExpr.key = none
  dependencies : ∀ assembly ∈ scope.dependencies, assembly.get? decl.toExpr.key = none
  own : ∀ other ∈ module.types, other.runtimeName = decl.toExpr.key → other = decl
  unmodified : TypeName.splitModifier decl.toExpr.key.toList = none

/-! ## Two names -/

theorem toList_key_toExpr (decl : TypeDecl) :
    decl.toExpr.key.toList = decl.fullName.toList.map TypeName.runtimeChar :=
  TypeExpr.toList_key_named decl.fullName

/-- A type is described under the name of its reference if it is nested, or else if its name reads
the same in both dialects. -/
theorem key_toExpr_eq_runtimeName_iff (decl : TypeDecl) :
    decl.toExpr.key = decl.runtimeName ↔
      decl.outer.isSome ∨ TypeName.IsRuntime decl.fullName.toList := by
  rw [← String.toList_inj, toList_key_toExpr]
  cases nested : decl.outer with
  | some outer =>
      simp [runtimeName, Header.fullName, header, fullName, nested, TypeName.toRuntime,
        String.toList_map, TypeName.runtimeChar]
  | none =>
      have same : decl.runtimeName = decl.fullName := by
        simp [runtimeName, Header.fullName, header, fullName, nested]
      rw [same, Option.isSome_none, Bool.false_eq_true, false_or]
      constructor
      · intro fixed
        exact List.map_inj_left.mp (fixed.trans (List.map_id _).symm)
      · exact TypeName.IsRuntime.map_eq_self

end TypeDecl

namespace TypeExpr

/-- An expression without parts has a name without parts. -/
theorem shapeOfName_key_of_plain (plain : expr.shape = .plain) : shapeOfName expr.key = .plain := by
  cases expr with
  | named name => exact plain
  | applied element arguments => cases plain

/-- A name that ends in no modifier has parts just if it is read as an application. -/
theorem shapeOfName_eq_plain_iff (unmodified : TypeName.splitModifier name.toList = none) :
    shapeOfName name = .plain ↔ TypeName.splitApplication name.toList = none := by
  cases split : TypeName.splitApplication name.toList with
  | none => simp [shapeOfName, unmodified, TypeName.read_of_leaf unmodified split]
  | some parts =>
      obtain ⟨element, arguments⟩ := parts
      simp [shapeOfName_of_application unmodified split]

end TypeExpr

/-! ## Applications -/

/-- A name that is read as an application never stands for a declared type. -/
theorem Scope.upholds_of_application
    (applied : TypeExpr.shapeOfName name = .application element arguments) (scope : Scope) :
    scope.Upholds fun key type => key = name → ¬ type.isDeclared where
  plain := by
    intro expr type plain _ same
    have bare := TypeExpr.shapeOfName_key_of_plain plain
    rw [same, applied] at bare
    cases bare
  application := by
    intro expr element arguments definition types type _ _ _ closes _
    rw [(Descriptor.closed_of_close closes).1]
    exact Bool.false_ne_true
  modification := by
    intro expr element modifier type base _ _ _
    exact Bool.false_ne_true

namespace Binder

theorem not_isDeclared_of_application
    (made : ofModule env directories module world = (.ok binder, ended))
    (applied : TypeExpr.shapeOfName expr.key = .application element arguments)
    (resolved : (binder.resolve false expr).1 = .ok (some type)) : ¬ type.isDeclared := by
  have upholds := Scope.upholds_of_application applied
  obtain ⟨_, _, describes⟩ := describes_of_ofModule made
  have held := (describes.cache_holds (fun _ _ => upholds _) nofun .nil).1
  exact (keeps_resolve (upholds binder.scope) held false expr).good type resolved rfl

/-! ## Bare references -/

/-- A type is declared once under the name of its reference, if at all. -/
theorem isUnambiguous_of_isAlone (distinct : (module.types.map (·.fullName)).Nodup)
    (alone : decl.IsAlone module scope) : scope.IsUnambiguous module decl.toExpr.key := by
  intro _
  have same : ∀ other ∈ module.declaring decl.toExpr.key, other = decl := by
    intro other member
    obtain ⟨listed, named⟩ := List.mem_filter.mp member
    exact alone.own other listed (of_decide_eq_true named)
  have once : (module.declaring decl.toExpr.key).Nodup := (List.Nodup.of_map _ distinct).filter _
  right
  cases declaring : module.declaring decl.toExpr.key with
  | nil => exact .inl rfl
  | cons first rest =>
      right
      rw [List.eq_replicate_of_mem same] at once
      have short := List.nodup_replicate.mp once
      rw [declaring, List.length_cons] at short
      refine ⟨?_, alone.dependencies⟩
      rw [List.length_cons]
      omega

/-- A reference that is read as a bare name is answered by what the module declares under it. -/
theorem resolve_toExpr_of_plain
    (made : ofModule env directories module world = (.ok binder, ended))
    (distinct : (module.types.map (·.fullName)).Nodup)
    (alone : decl.IsAlone module binder.scope) (bare : module.BasesBare decl.toExpr.key)
    (plain : decl.toExpr.shape = .plain) :
    (binder.resolve false decl.toExpr).1 = .ok (binder.scope.own.get? decl.toExpr.key) := by
  have steady := isSteady_of_basesBare made bare (isUnambiguous_of_isAlone distinct alone)
  have nowhere : binder.scope.dependencies.findSome? (·.get? decl.toExpr.key) = none :=
    List.findSome?_eq_none_iff.mpr alone.dependencies
  have looked : binder.scope.lookup decl.toExpr.key =
      binder.scope.own.get? decl.toExpr.key := by
    rw [Scope.lookup, alone.builtin, nowhere, Option.none_or, Option.or_none]
  have resolved : (binder.resolve false decl.toExpr).1 = _ :=
    Scope.fst_resolveWithin_of_plain plain 99 binder.cache
  rw [resolved, ← looked]
  cases known : binder.cache.lookup decl.toExpr.key with
  | none =>
      rw [Option.none_or]
      cases binder.scope.lookup decl.toExpr.key <;> rfl
  | some type =>
      rw [steady.known type known]
      rfl

/-- A reference of the module to a type of its own finds that type just if the type is nested or its
name reads the same in both dialects, and the name is not read as an application. -/
theorem resolve_toExpr_iff (made : ofModule env directories module world = (.ok binder, ended))
    (listed : decl ∈ module.types) (distinct : (module.types.map (·.fullName)).Nodup)
    (alone : decl.IsAlone module binder.scope) (bare : module.BasesBare decl.toExpr.key) :
    (∃ type, (binder.resolve false decl.toExpr).1 = .ok (some type) ∧
        decl.IsDescribedBy module.name type) ↔
      (decl.outer.isSome ∨ TypeName.IsRuntime decl.fullName.toList) ∧
        TypeName.splitApplication decl.toExpr.key.toList = none := by
  have isOf := isOf_of_ofModule made
  rw [← decl.key_toExpr_eq_runtimeName_iff, ← TypeExpr.shapeOfName_eq_plain_iff alone.unmodified]
  constructor
  · rintro ⟨type, resolved, described⟩
    have plain : TypeExpr.shapeOfName decl.toExpr.key = .plain := by
      cases shape : TypeExpr.shapeOfName decl.toExpr.key with
      | application element arguments =>
          exact absurd described.declared (not_isDeclared_of_application made shape resolved)
      | modification element modifier =>
          rw [TypeExpr.shapeOfName, alone.unmodified] at shape
          dsimp only at shape
          split at shape <;> cases shape
      | plain => rfl
    refine ⟨?_, plain⟩
    rw [resolve_toExpr_of_plain made distinct alone bare plain, Except.ok.injEq] at resolved
    rw [← Assembly.fullName_of_get? resolved, described.fullName]
  · rintro ⟨named, plain⟩
    rw [resolve_toExpr_of_plain made distinct alone bare plain]
    obtain ⟨type, found⟩ := Option.isSome_iff_exists.mp (isOf.declared decl listed)
    refine ⟨type, by rw [named, found], ?_⟩
    obtain ⟨other, member, goesBy, base, rfl⟩ := isOf.own _ _ found
    rw [alone.own other member (goesBy.trans named.symm)]
    exact decl.isDescribedBy_declared module.name base

end Binder

namespace Sample

/-- A type that a compiler has made for the closures of the type around it. -/
def closure : TypeDecl where
  name := "<>c"
  outer := some "App.Base"
  methods := [{ name := "<Run>b__0" }]

/-- The type that holds the functions of a module that belong to no type. -/
def globals : TypeDecl where
  name := "<Module>"
  methods := [{ name := "Run", isStatic := true }]

/-- A module with a type around another one, and one with no other. -/
def nesting : Module where
  name := "App"
  types := [{ space := "App", name := "Base" }, closure]

def bareGlobals : Module where
  name := "App"
  types := [globals]

end Sample

namespace Binder

/-- A nested type is found by its own reference, whatever characters are in its name. -/
theorem resolve_toExpr_iff_nested :
    ∃ binder, ofModule (Sample.library "Other") [] Sample.nesting () = (.ok binder, ()) ∧
      ∃ type, (binder.resolve false Sample.closure.toExpr).1 = .ok (some type) ∧
        Sample.closure.IsDescribedBy "App" type := by
  obtain ⟨binder, made⟩ : ∃ binder,
      ofModule (Sample.library "Other") [] Sample.nesting () = (.ok binder, ()) := ⟨_, rfl⟩
  have isOf := isOf_of_ofModule made
  have independent := isOf.dependencies_eq_nil rfl
  have key := Sample.closure.toList_key_toExpr
  have alone : Sample.closure.IsAlone Sample.nesting binder.scope := by
    refine ⟨by rw [isOf.builtin]; rfl, by rw [independent]; nofun, ?_, by rw [key]; decide⟩
    refine List.forall_mem_cons.mpr ⟨?_, List.forall_mem_singleton.mpr fun _ => rfl⟩
    rw [← String.toList_inj, key]
    exact fun named => absurd named (by decide)
  have bare := Module.basesBare_of_baseless Sample.closure.toExpr.key
    (by decide : ∀ decl ∈ Sample.nesting.types, decl.base = none)
  refine ⟨binder, made, ?_⟩
  exact (resolve_toExpr_iff made (by decide) (by decide) alone bare).mpr
    ⟨.inl rfl, by rw [key]; decide⟩

/-- A type that is not nested is not found by its own reference if that reads otherwise at run
time. -/
theorem resolve_toExpr_of_globals :
    ∃ binder, ofModule (Sample.library "Other") [] Sample.bareGlobals () = (.ok binder, ()) ∧
      Sample.globals ∈ Sample.bareGlobals.types ∧
      (Sample.bareGlobals.types.map (·.fullName)).Nodup ∧
      Sample.globals.IsAlone Sample.bareGlobals binder.scope ∧
      (binder.resolve false Sample.globals.toExpr).1 = .ok none := by
  obtain ⟨binder, made⟩ : ∃ binder,
      ofModule (Sample.library "Other") [] Sample.bareGlobals () = (.ok binder, ()) := ⟨_, rfl⟩
  have isOf := isOf_of_ofModule made
  have independent := isOf.dependencies_eq_nil rfl
  have key := Sample.globals.toList_key_toExpr
  have elsewhere : ∀ other ∈ Sample.bareGlobals.types,
      other.runtimeName ≠ Sample.globals.toExpr.key := by
    simp only [ne_eq, ← String.toList_inj, key]
    decide
  have alone : Sample.globals.IsAlone Sample.bareGlobals binder.scope := by
    refine ⟨by rw [isOf.builtin]; rfl, by rw [independent]; nofun, ?_, by rw [key]; decide⟩
    exact fun other member named => absurd named (elsewhere other member)
  have bare := Module.basesBare_of_baseless Sample.globals.toExpr.key
    (by decide : ∀ decl ∈ Sample.bareGlobals.types, decl.base = none)
  have plain : Sample.globals.toExpr.shape = .plain :=
    (TypeExpr.shapeOfName_eq_plain_iff alone.unmodified).mpr (by rw [key]; decide)
  refine ⟨binder, made, List.mem_cons_self, by decide, alone, ?_⟩
  rw [resolve_toExpr_of_plain made (by decide) alone bare plain, Except.ok.injEq]
  cases found : binder.scope.own.get? Sample.globals.toExpr.key with
  | none => rfl
  | some type =>
      obtain ⟨other, member, named, _⟩ := isOf.own _ _ found
      exact absurd named (elsewhere other member)

end Binder

end Splice
