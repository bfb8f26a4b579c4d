import Mathlib.Data.List.Perm.Basic
import Splice.Proofs.Binding.Resolution
import Splice.Proofs.Success

/-!
# Lookup order

A plain name resolves to the built-in type of that name, else to the module's own, else to that of
the first dependency that has one. Bases are resolved while the module's own types are still being
described, and what they find is kept for good. A base may therefore fix a name before the module's
own type is there; the order holds for every name that no base fixes too early.
-/

namespace Splice

variable {σ : Type} {env : Environment σ} {directories : List String} {module : Module}
variable {world ended : σ} {binder between after : Binder} {decl : TypeDecl}
variable {decls left rest others extra : List TypeDecl} {base : Option Descriptor}
variable {name : String} {type : Descriptor} {assembly : Assembly} {mentioned : Prop}

/-! ## What is declared -/

namespace Assembly

/-- An added type is found under its name and hides nothing else. -/
theorem get?_add (assembly : Assembly) (type : Descriptor) (name : String) :
    (assembly.add type).get? name =
      if type.fullName = name then some type else assembly.get? name := by
  rw [get?, add]
  split_ifs with same
  · rw [List.find?_cons_of_pos (by simpa using same)]
  · rw [List.find?_cons_of_neg (by simpa using same), List.find?_filter, get?]
    congr 1
    funext other
    by_cases named : other.fullName = name
    · have distinct : name ≠ type.fullName := Ne.symm same
      simp [named, distinct]
    · simp [named]

end Assembly

namespace TypeDecl

/-- The name of the type's descriptor. -/
def runtimeName (decl : TypeDecl) : String :=
  (decl.header "").fullName

theorem fullName_header (decl : TypeDecl) (assembly : String) :
    (decl.header assembly).fullName = decl.runtimeName := rfl

end TypeDecl

namespace Module

/-- The types of the module with the name. -/
def declaring (module : Module) (name : String) : List TypeDecl :=
  module.types.filter (·.runtimeName = name)

/-- A base of the module's types has the name among the leaves of what it comes down to. -/
def BasesMention (module : Module) (name : String) : Prop :=
  ∃ decl ∈ module.types, ∃ base, decl.base = some base ∧ base.Mentions name

/-- Where a base of the module's types comes down to something that goes by the name, that has no
parts. -/
def BasesBare (module : Module) (name : String) : Prop :=
  ∀ decl ∈ module.types, ∀ base, decl.base = some base → base.IsBare name

theorem basesBare_of_baseless (name : String) (baseless : ∀ decl ∈ module.types, decl.base = none) :
    module.BasesBare name := by
  intro decl member base hasBase
  rw [baseless decl member] at hasBase
  cases hasBase

end Module

/-! ## How types are described -/

namespace Binder

/-- Describing the types of a module seeks bases of types that are left, and describes types that
are left, in any order. -/
inductive Describes : Binder → List TypeDecl → Binder → Prop where
  | done (binder : Binder) : Describes binder [] binder
  | seek {binder after : Binder} {decls : List TypeDecl} {decl : TypeDecl} {base : TypeExpr} :
      decl ∈ decls → decl.base = some base →
      Describes (binder.resolve false base).2 decls after → Describes binder decls after
  | declare {binder after : Binder} {decls rest : List TypeDecl} {decl : TypeDecl}
      {base : Option Descriptor} :
      decls.Perm (decl :: rest) → Describes (binder.declare decl base) rest after →
      Describes binder decls after

/-- A base that is sought is resolved leniently, if there is one. -/
theorem baseOf_cases {found : Option (Option Descriptor)}
    (sought : binder.baseOf decl = (found, between)) :
    (decl.base = none ∧ between = binder ∧ found = some none) ∨
      ∃ base, decl.base = some base ∧ between = (binder.resolve false base).2 ∧
        ((∃ type, (binder.resolve false base).1 = .ok (some type) ∧ found = some (some type)) ∨
          (found = none ∧ ∀ type, (binder.resolve false base).1 ≠ .ok (some type))) := by
  rw [baseOf] at sought
  split at sought
  next bare =>
    cases sought
    exact .inl ⟨bare, rfl, rfl⟩
  next base hasBase =>
    refine .inr ⟨base, hasBase, ?_⟩
    split at sought
    next type after resolved =>
      cases sought
      rw [resolved]
      exact ⟨rfl, .inl ⟨type, rfl, rfl⟩⟩
    next answer after missed resolved =>
      cases sought
      rw [resolved]
      exact ⟨rfl, .inr ⟨rfl, missed⟩⟩

namespace Describes

theorem perm (describes : Describes binder decls after) (perm : decls.Perm others) :
    Describes binder others after := by
  induction describes generalizing others with
  | done => rw [List.perm_nil.mp perm.symm]; exact .done _
  | seek member sought _ ih => exact .seek (perm.mem_iff.mp member) sought (ih perm)
  | declare split describes _ => exact .declare (perm.symm.trans split) describes

theorem of_baseOf {found : Option (Option Descriptor)} (member : decl ∈ decls)
    (sought : binder.baseOf decl = (found, between)) (describes : Describes between decls after) :
    Describes binder decls after := by
  rcases baseOf_cases sought with ⟨_, rfl, _⟩ | ⟨base, hasBase, rfl, _⟩
  · exact describes
  · exact seek member hasBase describes

theorem of_describeReady (ready : binder.describeReady decls = (left, between))
    (describes : Describes between (left ++ extra) after) :
    Describes binder (decls ++ extra) after := by
  induction decls generalizing binder left extra with
  | nil =>
      cases ready
      exact describes
  | cons decl decls ih =>
      rw [describeReady] at ready
      split at ready
      next base sought binder found =>
        apply of_baseOf List.mem_cons_self found
        exact .declare (.refl _) (ih ready describes)
      next sought binder found =>
        cases readyRest : binder.describeReady decls with
        | mk leftRest betweenRest =>
        rw [readyRest] at ready
        cases ready
        apply of_baseOf List.mem_cons_self found
        have longer : Describes between (leftRest ++ decl :: extra) after :=
          describes.perm List.perm_middle.symm
        exact (ih readyRest longer).perm List.perm_middle

/-- All types are described, one way or another. -/
theorem of_describe (binder : Binder) (decls : List TypeDecl) :
    Describes binder decls (binder.describe decls) := by
  induction binder, decls using describe.induct with
  | case1 binder decls left between ready fewer ih =>
      rw [describe, ready]
      simp only [if_pos fewer]
      rw [← List.append_nil decls]
      exact of_describeReady ready (by rwa [List.append_nil])
  | case2 binder decls left between ready stuck =>
      rw [describe, ready]
      simp only [if_neg stuck]
      rw [← List.append_nil decls]
      apply of_describeReady ready
      rw [List.append_nil]
      clear ready stuck
      induction left generalizing between with
      | nil => exact .done _
      | cons decl left ih => exact .declare (.refl _) (ih (between.declare decl none))

/-- Only the module's own types and the cache change. -/
theorem frame (describes : Describes binder decls after) :
    after.scope.builtin = binder.scope.builtin ∧
      after.scope.dependencies = binder.scope.dependencies ∧
      after.scope.own.name = binder.scope.own.name := by
  induction describes with
  | done => exact ⟨rfl, rfl, rfl⟩
  | seek _ _ _ ih => exact ih
  | declare _ _ ih => exact ih

theorem get?_declare (binder : Binder) (decl : TypeDecl) (base : Option Descriptor)
    (name : String) :
    (binder.declare decl base).scope.own.get? name =
      if decl.runtimeName = name then
        some (.declared (decl.header binder.scope.own.name) base)
      else binder.scope.own.get? name := by
  rw [Binder.declare, Assembly.get?_add, Descriptor.fullName, TypeDecl.fullName_header]

/-- Every type is described, and those described before stay. -/
theorem isSome_get? (describes : Describes binder decls after) (name : String) :
    ((binder.scope.own.get? name).isSome ∨ ∃ decl ∈ decls, decl.runtimeName = name) →
      (after.scope.own.get? name).isSome := by
  induction describes with
  | done binder =>
      rintro (described | ⟨_, member, _⟩)
      · exact described
      · cases member
  | seek _ _ _ ih => exact ih
  | @declare binder _ _ _ decl base split _ ih =>
      intro described
      apply ih
      rw [get?_declare]
      split_ifs with named
      · exact .inl rfl
      · refine described.imp_right fun ⟨other, member, otherNamed⟩ => ?_
        rcases List.mem_cons.mp (split.mem_iff.mp member) with rfl | member
        · exact absurd otherNamed named
        · exact ⟨other, member, otherNamed⟩

/-- A type that is found was there before or is one of the list, found under its name. -/
theorem get?_or_exists (describes : Describes binder decls after)
    (found : after.scope.own.get? name = some type) :
    binder.scope.own.get? name = some type ∨ ∃ decl ∈ decls, decl.runtimeName = name ∧
      ∃ base, type = .declared (decl.header binder.scope.own.name) base := by
  induction describes with
  | done => exact .inl found
  | seek _ _ _ ih => exact ih found
  | @declare binder _ _ _ decl base split _ ih =>
      rcases ih found with before | ⟨other, member, rest⟩
      · rw [get?_declare] at before
        split_ifs at before with named
        · refine .inr ⟨decl, split.mem_iff.mpr List.mem_cons_self, named, base, ?_⟩
          exact (Option.some.inj before).symm
        · exact .inl before
      · exact .inr ⟨other, split.mem_iff.mpr (List.mem_cons_of_mem _ member), rest⟩

end Describes

/-- What the cache has under the name is what the scope finds, now and when the types that are left
are described. -/
structure IsSteady (binder : Binder) (name : String) (mentioned : Prop) (decls : List TypeDecl) :
    Prop where
  known : ∀ type, binder.cache.lookup name = some type → binder.scope.lookup name = some type
  fixed : binder.cache.lookup name ≠ none →
    binder.scope.builtin name ≠ none ∨ ∀ decl ∈ decls, decl.runtimeName ≠ name
  mentions : ∀ decl ∈ decls, ∀ base, decl.base = some base → base.Mentions name → mentioned
  unambiguous : mentioned → binder.scope.builtin name ≠ none ∨
    (∀ decl ∈ decls, decl.runtimeName ≠ name) ∨
    (∀ assembly ∈ binder.scope.dependencies, assembly.get? name = none) ∧
      binder.scope.own.get? name = none ∧ (decls.filter (·.runtimeName = name)).length ≤ 1

namespace IsSteady

theorem resolve (steady : binder.IsSteady name mentioned decls) {expr : TypeExpr}
    (bare : expr.IsBare name) (mentions : expr.Mentions name → mentioned) (strict : Bool) :
    (binder.resolve strict expr).2.IsSteady name mentioned decls := by
  have learns : binder.scope.Learns name (expr.Mentions name) binder.cache
      (binder.resolve strict expr).2.cache :=
    Scope.learns_resolveWithin bare Scope.depthLimit binder.cache
  refine ⟨?_, ?_, steady.mentions, steady.unambiguous⟩
  · intro type known
    rcases learns with same | ⟨_, _, learned⟩
    · exact steady.known type (same ▸ known)
    · exact learned.symm.trans known
  · intro known
    rcases learns with same | ⟨mention, _, learned⟩
    · exact steady.fixed (same ▸ known)
    · rcases steady.unambiguous (mentions mention) with
        builtin | elsewhere | ⟨noDependency, notYet, _⟩
      · exact .inl builtin
      · exact .inr elsewhere
      · left
        intro noBuiltin
        apply known
        have nowhere : binder.scope.dependencies.findSome? (·.get? name) = none :=
          List.findSome?_eq_none_iff.mpr noDependency
        rw [scope_resolve] at noBuiltin
        rw [learned, Scope.lookup, noBuiltin, notYet, nowhere]
        rfl

theorem declare (steady : binder.IsSteady name mentioned decls) (split : decls.Perm (decl :: rest))
    (base : Option Descriptor) : (binder.declare decl base).IsSteady name mentioned rest := by
  have among : ∀ other ∈ rest, other ∈ decls := fun other member =>
    split.mem_iff.mpr (List.mem_cons_of_mem _ member)
  have here : decl ∈ decls := split.mem_iff.mpr List.mem_cons_self
  refine ⟨?_, ?_, ?_, ?_⟩
  · intro type known
    have current := steady.known type known
    rcases steady.fixed (Option.ne_none_iff_exists'.mpr ⟨type, known⟩) with builtin | elsewhere
    · obtain ⟨found, builtin⟩ := Option.ne_none_iff_exists'.mp builtin
      rw [Scope.lookup, builtin] at current
      rw [Scope.lookup]
      change (binder.scope.builtin name).or _ = _
      rw [builtin]
      exact current
    · rw [Scope.lookup, Describes.get?_declare, if_neg (elsewhere decl here)]
      exact current
  · intro known
    exact (steady.fixed known).imp_right fun elsewhere other member =>
      elsewhere other (among other member)
  · intro other member
    exact steady.mentions other (among other member)
  · intro mention
    rcases steady.unambiguous mention with builtin | elsewhere | ⟨noDependency, notYet, once⟩
    · exact .inl builtin
    · exact .inr (.inl fun other member => elsewhere other (among other member))
    · right
      rw [(split.filter _).length_eq] at once
      by_cases named : decl.runtimeName = name
      · left
        intro other member otherNamed
        rw [List.filter_cons_of_pos (by simpa using named), List.length_cons] at once
        have empty := List.length_eq_zero_iff.mp (Nat.le_zero.mp (Nat.le_of_succ_le_succ once))
        have listed : other ∈ rest.filter (·.runtimeName = name) :=
          List.mem_filter.mpr ⟨member, decide_eq_true otherNamed⟩
        rw [empty] at listed
        cases listed
      · right
        rw [List.filter_cons_of_neg (by simpa using named)] at once
        refine ⟨noDependency, ?_, once⟩
        rw [Describes.get?_declare, if_neg named]
        exact notYet

theorem describes (steady : binder.IsSteady name mentioned decls)
    (bare : ∀ decl ∈ decls, ∀ base, decl.base = some base → base.IsBare name)
    (describes : Describes binder decls after) : after.IsSteady name mentioned [] := by
  induction describes with
  | done => exact steady
  | seek member hasBase _ ih =>
      have further := steady.resolve (bare _ member _ hasBase)
        (steady.mentions _ member _ hasBase) false
      exact ih further bare
  | declare split _ ih =>
      apply ih (steady.declare split _)
      exact fun other member => bare other (split.mem_iff.mpr (List.mem_cons_of_mem _ member))

theorem resolveAll (steady : binder.IsSteady name True []) (plain : TypeName.IsPlain name)
    (calls : List (Bool × TypeExpr)) : (binder.resolveAll calls).IsSteady name True [] := by
  induction calls generalizing binder with
  | nil => exact steady
  | cons call rest ih =>
      have bare := TypeExpr.isBare_of_isPlain plain call.2
      exact ih (steady.resolve bare (fun _ => trivial) call.1)

/-- Once all types are described, whatever the cache has stays right. -/
theorem settled (steady : binder.IsSteady name mentioned []) : binder.IsSteady name True [] :=
  ⟨steady.known, fun _ => .inr nofun, nofun, fun _ => .inr (.inl nofun)⟩

end IsSteady

end Binder

/-! ## The order -/

/-- The scope is that of a module whose types are described: the built-in types and the
dependencies, in the order of the module's references, come from the environment. -/
structure Scope.IsOf (scope : Scope) (env : Environment σ) (directories : List String)
    (module : Module) (world ended : σ) : Prop where
  builtin : scope.builtin = env.builtin ended
  dependencies : env.dependencies (module.directory?.toList ++ directories) module.references
    world = (.ok scope.dependencies, ended)
  declared : ∀ decl ∈ module.types, (scope.own.get? decl.runtimeName).isSome
  own : ∀ name type, scope.own.get? name = some type → ∃ decl ∈ module.types,
    decl.runtimeName = name ∧ ∃ base, type = .declared (decl.header module.name) base

theorem Scope.IsOf.dependencies_eq_nil {scope : Scope}
    (isOf : scope.IsOf env directories module world ended) (unreferenced : module.references = []) :
    scope.dependencies = [] := by
  have found := isOf.dependencies
  rw [unreferenced, Environment.dependencies, Prod.mk.injEq, Except.ok.injEq] at found
  exact found.1.symm

/-- If the bases of the module mention the name, then it is built in, or the module declares no such
type, or else it declares one and no dependency has another. -/
def Scope.IsUnambiguous (scope : Scope) (module : Module) (name : String) : Prop :=
  module.BasesMention name → scope.builtin name ≠ none ∨ module.declaring name = [] ∨
    (module.declaring name).length = 1 ∧
      ∀ assembly ∈ scope.dependencies, assembly.get? name = none

namespace Binder

/-- The types are described once all dependencies are found. -/
theorem eq_describe_of_ofModule
    (made : ofModule env directories module world = (.ok binder, ended)) :
    ∃ dependencies, env.dependencies (module.directory?.toList ++ directories) module.references
        world = (.ok dependencies, ended) ∧
      binder = ({ scope := ⟨env.builtin ended, ⟨module.name, []⟩, dependencies⟩ } : Binder).describe
        module.types := by
  rw [ofModule] at made
  dsimp only at made
  split at made
  · cases made
  next dependencies world found =>
    cases made
    exact ⟨dependencies, found, rfl⟩

theorem describes_of_ofModule
    (made : ofModule env directories module world = (.ok binder, ended)) :
    ∃ dependencies, env.dependencies (module.directory?.toList ++ directories) module.references
        world = (.ok dependencies, ended) ∧
      Describes ⟨⟨env.builtin ended, ⟨module.name, []⟩, dependencies⟩, []⟩ module.types binder := by
  obtain ⟨dependencies, found, rfl⟩ := eq_describe_of_ofModule made
  exact ⟨dependencies, found, .of_describe _ _⟩

theorem isOf_of_ofModule (made : ofModule env directories module world = (.ok binder, ended)) :
    binder.scope.IsOf env directories module world ended := by
  obtain ⟨dependencies, found, describes⟩ := describes_of_ofModule made
  obtain ⟨builtin, same, _⟩ := describes.frame
  refine ⟨builtin, ?_, ?_, ?_⟩
  · rw [found, same]
  · intro decl member
    exact describes.isSome_get? _ (.inr ⟨decl, member, rfl⟩)
  · intro name type here
    refine (describes.get?_or_exists here).resolve_left ?_
    intro before
    cases before

theorem isSteady_of_basesBare (made : ofModule env directories module world = (.ok binder, ended))
    (bare : module.BasesBare name) (unambiguous : binder.scope.IsUnambiguous module name) :
    binder.IsSteady name True [] := by
  obtain ⟨dependencies, found, describes⟩ := describes_of_ofModule made
  obtain ⟨builtin, same, _⟩ := describes.frame
  suffices steady : IsSteady ⟨⟨env.builtin ended, ⟨module.name, []⟩, dependencies⟩, []⟩ name
      (module.BasesMention name) module.types by
    exact (steady.describes bare describes).settled
  refine ⟨?_, ?_, ?_, ?_⟩
  · intro type known
    cases known
  · intro known
    exact absurd rfl known
  · intro decl member base hasBase mentions
    exact ⟨decl, member, base, hasBase, mentions⟩
  · intro mentions
    rcases unambiguous mentions with isBuiltin | undeclared | ⟨once, noDependency⟩
    · rw [builtin] at isBuiltin
      exact .inl isBuiltin
    · right
      left
      intro decl member named
      have listed : decl ∈ module.declaring name :=
        List.mem_filter.mpr ⟨member, decide_eq_true named⟩
      rw [undeclared] at listed
      cases listed
    · rw [same] at noDependency
      exact .inr (.inr ⟨noDependency, rfl, once.le⟩)

theorem isSteady_of_ofModule (made : ofModule env directories module world = (.ok binder, ended))
    (plain : TypeName.IsPlain name) (unambiguous : binder.scope.IsUnambiguous module name) :
    binder.IsSteady name True [] :=
  isSteady_of_basesBare made (fun _ _ base _ => TypeExpr.isBare_of_isPlain plain base) unambiguous

/-- A plain name resolves to the built-in type, else the module's own, else that of the first
dependency that has one, after whatever resolutions. This holds of every name that is unambiguous
where a base mentions it. -/
theorem resolve_of_isPlain (made : ofModule env directories module world = (.ok binder, ended))
    (plain : TypeName.IsPlain (TypeExpr.named name).key)
    (unambiguous : binder.scope.IsUnambiguous module (TypeExpr.named name).key)
    (calls : List (Bool × TypeExpr)) (strict : Bool) :
    binder.scope.IsOf env directories module world ended ∧
      ((binder.resolveAll calls).resolve strict (.named name)).1 =
        Scope.answer strict (TypeExpr.named name).key
          ((env.builtin ended (TypeExpr.named name).key).or
            ((binder.scope.own.get? (TypeExpr.named name).key).or
              (binder.scope.dependencies.findSome? (·.get? (TypeExpr.named name).key)))) := by
  have isOf := isOf_of_ofModule made
  refine ⟨isOf, ?_⟩
  have steady := (isSteady_of_ofModule made plain unambiguous).resolveAll plain calls
  have resolved : ((binder.resolveAll calls).resolve strict (.named name)).1 = _ :=
    Scope.resolve_plain plain (binder.resolveAll calls).cache
  rw [resolved, ← isOf.builtin, scope_resolveAll]
  congr 1
  cases known : (binder.resolveAll calls).cache.lookup (TypeExpr.named name).key with
  | none => rfl
  | some type =>
      have current := steady.known type known
      rw [scope_resolveAll] at current
      exact current.symm

end Binder

namespace Sample

/-- An environment in which one library declares a type that others derive from. -/
def library (base : String) : Environment Unit where
  coreName := "mscorlib"
  builtin := fun _ _ => none
  loaded := fun _ name =>
    if name = "Lib" then
      some ⟨"Lib", [.declared { space := "App", name := base, assembly := "Lib" } none]⟩
    else none
  isFile := fun _ => false
  load := fun _ world => (.error .unsupported, world)

/-- A module that declares a type before its base. -/
def derived : Module where
  name := "App"
  references := ["Lib"]
  types := [{ space := "App", name := "Derived", base := some (.named "App.Base") },
    { space := "App", name := "Base" }]

end Sample

namespace Binder

/-- A base that only the module declares. -/
theorem resolve_of_isPlain_base :
    ∃ binder, ofModule (Sample.library "Other") [] Sample.derived () = (.ok binder, ()) ∧
      ∀ calls strict, binder.scope.IsOf (Sample.library "Other") [] Sample.derived () () ∧
        ((binder.resolveAll calls).resolve strict (.named "App.Base")).1 =
          Scope.answer strict "App.Base"
            (((Sample.library "Other").builtin () "App.Base").or
              ((binder.scope.own.get? "App.Base").or
                (binder.scope.dependencies.findSome? (·.get? "App.Base")))) := by
  have succeeds : (ofModule (Sample.library "Other") [] Sample.derived ()).1.toOption.any
      (fun binder => binder.scope.dependencies.all fun assembly =>
        (assembly.get? "App.Base").isNone) = true := by decide +kernel
  obtain ⟨binder, made, noDependency⟩ := exists_eq_ok_of_any succeeds
  have made : ofModule (Sample.library "Other") [] Sample.derived () = (.ok binder, ()) :=
    Prod.ext made rfl
  have key : (TypeExpr.named "App.Base").key = "App.Base" := by decide +kernel
  have unambiguous : binder.scope.IsUnambiguous Sample.derived (TypeExpr.named "App.Base").key := by
    rw [key]
    intro _
    refine .inr (.inr ⟨by decide +kernel, ?_⟩)
    intro assembly member
    exact Option.isNone_iff_eq_none.mp (List.all_eq_true.mp noDependency assembly member)
  refine ⟨binder, made, ?_⟩
  intro calls strict
  have resolves := resolve_of_isPlain made (by decide +kernel) unambiguous calls strict
  rwa [key] at resolves

/-- A base that a library declares as well, and that is resolved before the module's own is
described, keeps its name for the library's type. -/
theorem resolve_of_clashing_base :
    ∃ binder own found, ofModule (Sample.library "Base") [] Sample.derived () = (.ok binder, ()) ∧
      (Sample.library "Base").builtin () "App.Base" = none ∧
      binder.scope.own.get? "App.Base" = some own ∧ own.assembly = "App" ∧
      (binder.resolve true (.named "App.Base")).1 = .ok (some found) ∧ found.assembly = "Lib" := by
  have succeeds : (ofModule (Sample.library "Base") [] Sample.derived ()).1.toOption.any
      (fun binder => (binder.scope.own.get? "App.Base").any (·.assembly == "App") &&
        (binder.resolve true (.named "App.Base")).1.toOption.any
          (fun found => found.any (·.assembly == "Lib"))) = true := by decide +kernel
  obtain ⟨binder, made, both⟩ := exists_eq_ok_of_any succeeds
  rw [Bool.and_eq_true] at both
  obtain ⟨own, described, ownAssembly⟩ := (Option.any_eq_true ..).mp both.1
  obtain ⟨found?, resolved, foundAssembly⟩ := exists_eq_ok_of_any both.2
  obtain ⟨found, rfl, foundAssembly⟩ := (Option.any_eq_true ..).mp foundAssembly
  exact ⟨binder, own, found, Prod.ext made rfl, rfl, described, beq_iff_eq.mp ownAssembly,
    resolved, beq_iff_eq.mp foundAssembly⟩

end Binder

end Splice
