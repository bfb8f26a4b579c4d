import Mathlib.Data.Fintype.Card
import Mathlib.Data.Set.Finite.Basic
import Mathlib.Logic.Relation
import Splice.Proofs.Binding.Rounds

/-!
# Bases

Which types of a module keep the base that they declare: those whose base mentions only names that
are found and only types of the module that keep their bases in turn. The others lose it, even where
the base itself exists in the end: a type whose base has lost its own base, and types whose bases
mention each other.
-/

namespace Splice

variable {scope early : Scope} {holds : String → Descriptor → Prop} {name : String}
variable {type : Descriptor} {expr : TypeExpr} {binder : Binder} {decl : TypeDecl}
variable {decls stuck : List TypeDecl} {σ : Type} {env : Environment σ}
variable {directories : List String} {module : Module} {world ended : σ}

/-! ## Grounded types -/

/-- The base of the type is covered, and the types of the module that the base mentions are grounded
in turn. -/
inductive Scope.Grounds (scope : Scope) (decls : List TypeDecl) : TypeDecl → Prop where
  | bare {decl : TypeDecl} : decl.base = none → Grounds scope decls decl
  | base {decl : TypeDecl} {base : TypeExpr} : decl.base = some base →
      scope.Covers depthLimit base →
      (∀ other ∈ decls, base.Mentions other.runtimeName → Grounds scope decls other) →
      Grounds scope decls decl

theorem Scope.Distinguishes.lookup_eq (distinguishes : scope.Distinguishes decls)
    (member : decl ∈ decls) :
    scope.lookup decl.runtimeName = scope.own.get? decl.runtimeName := by
  have nowhere : scope.dependencies.findSome? (·.get? decl.runtimeName) = none :=
    List.findSome?_eq_none_iff.mpr (distinguishes.dependencies decl member)
  rw [Scope.lookup, distinguishes.builtin decl member, nowhere]
  simp

/-- A plain base grounds a type just if it names a grounded one. -/
theorem Scope.grounds_iff_of_isPlain (distinct : (decls.map (·.runtimeName)).Nodup)
    {decl target : TypeDecl} (member : target ∈ decls) (hasBase : decl.base = some expr)
    (plain : TypeName.IsPlain expr.key) (names : expr.key = target.runtimeName)
    (found : scope.lookup expr.key = some type) :
    scope.Grounds decls decl ↔ scope.Grounds decls target := by
  constructor
  · intro grounds
    cases grounds with
    | bare bare =>
        rw [bare] at hasBase
        cases hasBase
    | base sameBase _ mentioned =>
        rw [hasBase] at sameBase
        cases sameBase
        exact mentioned target member (.plain (TypeExpr.shape_of_isPlain plain) names)
  · intro grounds
    refine .base hasBase (.plain plain found) ?_
    intro another anotherMember mentions
    have same := (TypeExpr.mentions_iff_of_isPlain plain).mp mentions
    rw [names] at same
    rwa [List.inj_on_of_nodup_map distinct anotherMember member same.symm]

namespace Binder.IsOutcome

theorem lookup_of_early (outcome : IsOutcome holds module early stuck binder)
    (found : early.lookup name = some type) : binder.scope.lookup name = some type := by
  rw [outcome.same, found]
  rintro other member rfl
  rw [outcome.missing other member] at found
  cases found

/-- A grounded type keeps its base: the last round would have found it. -/
theorem not_mem_of_grounds (outcome : IsOutcome holds module early stuck binder)
    (grounds : binder.scope.Grounds module.types decl) : decl ∉ stuck := by
  induction grounds with
  | bare bare =>
      intro member
      obtain ⟨base, hasBase, _⟩ := outcome.uncovered _ member
      rw [bare] at hasBase
      cases hasBase
  | @base decl base hasBase covers _ ih =>
      intro member
      obtain ⟨_, sameBase, uncovered⟩ := outcome.uncovered decl member
      rw [hasBase] at sameBase
      cases sameBase
      apply uncovered
      apply covers.congr
      intro name mentions
      refine (outcome.same name ?_).symm
      rintro other otherMember rfl
      exact ih other (outcome.among otherMember) mentions otherMember

/-- Where all bases are plain names, what follows for a type from its base holds of all types that
keep their bases, each with its descriptor. -/
theorem induct_of_not_mem {motive : TypeDecl → Descriptor → Prop}
    (outcome : IsOutcome holds module early stuck binder)
    (distinguishes : binder.scope.Distinguishes module.types)
    (plain : ∀ decl ∈ module.types, ∀ base, decl.base = some base → TypeName.IsPlain base.key)
    (bare : ∀ decl ∈ module.types, decl.base = none →
      motive decl (.declared (decl.header module.name) none))
    (base : ∀ decl ∈ module.types, ∀ expr type, decl.base = some expr → TypeName.IsPlain expr.key →
      early.lookup expr.key = some type →
      (∀ target ∈ module.types, target.runtimeName = expr.key → motive target type) →
      motive decl (.declared (decl.header module.name) (some type)))
    (member : decl ∈ module.types) (notStuck : decl ∉ stuck)
    (described : binder.scope.own.get? decl.runtimeName = some type) : motive decl type := by
  -- The base of a descriptor has fewer bases than the descriptor itself.
  induction bound : type.bases.length using Nat.strong_induction_on generalizing decl type with
  | _ bound ih =>
      obtain ⟨linked, same, links⟩ := outcome.linked decl member notStuck
      rw [described] at same
      cases same
      cases linked with
      | none => exact bare decl member links
      | some found =>
          obtain ⟨expr, hasBase, _, finds⟩ := links
          have isPlain := plain decl member expr hasBase
          have foundEarly := finds isPlain
          refine base decl member expr found hasBase isPlain foundEarly ?_
          intro target targetMember named
          have notWaiting : target ∉ stuck := by
            intro waiting
            rw [← named, outcome.missing target waiting] at foundEarly
            cases foundEarly
          have targetFound := outcome.lookup_of_early foundEarly
          rw [← named, distinguishes.lookup_eq targetMember] at targetFound
          refine ih found.bases.length ?_ targetMember notWaiting targetFound rfl
          rw [← bound, Descriptor.bases, List.length_cons]
          exact Nat.lt_succ_self _

/-- Where all bases are plain names, only a grounded type keeps its base. -/
theorem grounds_of_not_mem (outcome : IsOutcome holds module early stuck binder)
    (distinguishes : binder.scope.Distinguishes module.types)
    (plain : ∀ decl ∈ module.types, ∀ base, decl.base = some base → TypeName.IsPlain base.key)
    (member : decl ∈ module.types) (notStuck : decl ∉ stuck)
    (described : binder.scope.own.get? decl.runtimeName = some type) :
    binder.scope.Grounds module.types decl := by
  refine outcome.induct_of_not_mem distinguishes plain ?_ ?_ member notStuck described
    (motive := fun decl _ => binder.scope.Grounds module.types decl)
  · exact fun _ _ hasNone => .bare hasNone
  · intro decl _ expr found hasBase isPlain foundEarly grounded
    refine .base hasBase (.plain isPlain (outcome.lookup_of_early foundEarly)) ?_
    intro target targetMember mentions
    exact grounded target targetMember ((TypeExpr.mentions_iff_of_isPlain isPlain).mp mentions).symm

/-- A type that keeps a plain base has it from the other type of the module that it names. -/
theorem base_of_isPlain (outcome : IsOutcome holds module early stuck binder)
    (distinguishes : binder.scope.Distinguishes module.types) {decl target : TypeDecl}
    (member : decl ∈ module.types) (notStuck : decl ∉ stuck) (targetMember : target ∈ module.types)
    (hasBase : decl.base = some expr) (plain : TypeName.IsPlain expr.key)
    (names : expr.key = target.runtimeName) :
    ∃ type, binder.scope.own.get? decl.runtimeName =
        some (.declared (decl.header module.name) (some type)) ∧
      binder.scope.own.get? target.runtimeName = some type := by
  obtain ⟨found, described, links⟩ := outcome.linked decl member notStuck
  cases found with
  | none =>
      rw [links] at hasBase
      cases hasBase
  | some type =>
      obtain ⟨_, sameBase, _, finds⟩ := links
      rw [hasBase] at sameBase
      cases sameBase
      have lookup := outcome.lookup_of_early (finds plain)
      rw [names, distinguishes.lookup_eq targetMember] at lookup
      exact ⟨type, described, lookup⟩

end Binder.IsOutcome

/-! ## Plain bases -/

namespace Binder

theorem upholds_trivial (scope : Scope) : scope.Upholds fun _ _ => True :=
  ⟨fun _ _ => trivial, fun _ _ _ _ => trivial, fun _ _ _ => trivial⟩

/-- Where all bases are plain names, a type whose base names another type of the module keeps that
base just if the other type is grounded. -/
theorem exists_base_of_isPlain (made : ofModule env directories module world = (.ok binder, ended))
    (distinguishes : binder.scope.Distinguishes module.types)
    (plain : ∀ decl ∈ module.types, ∀ base, decl.base = some base → TypeName.IsPlain base.key)
    {decl other : TypeDecl} (member : decl ∈ module.types) (otherMember : other ∈ module.types)
    {base : TypeExpr} (hasBase : decl.base = some base) (names : base.key = other.runtimeName) :
    ∃ found, binder.scope.own.get? decl.runtimeName =
        some (.declared (decl.header module.name) found) ∧
      (binder.scope.Grounds module.types other → ∃ type, found = some type ∧
        type.fullName = other.runtimeName ∧
        binder.scope.own.get? other.runtimeName = some type) ∧
      (¬ binder.scope.Grounds module.types other → found = none) := by
  obtain ⟨early, stuck, outcome⟩ :=
    exists_isOutcome made distinguishes fun _ => upholds_trivial _
  have isPlain := plain decl member base hasBase
  obtain ⟨type, described⟩ :=
    Option.isSome_iff_exists.mp ((isOf_of_ofModule made).declared other otherMember)
  have lookup : binder.scope.lookup base.key = some type := by
    rw [names, distinguishes.lookup_eq otherMember, described]
  have grounds_iff :=
    Scope.grounds_iff_of_isPlain distinguishes.names otherMember hasBase isPlain names lookup
  by_cases waiting : decl ∈ stuck
  · refine ⟨none, outcome.bare decl waiting, ?_, fun _ => rfl⟩
    intro grounds
    exact absurd waiting (outcome.not_mem_of_grounds (grounds_iff.mpr grounds))
  · obtain ⟨linked, describedDecl, describedOther⟩ := outcome.base_of_isPlain distinguishes member
      waiting otherMember hasBase isPlain names
    have grounds := outcome.grounds_of_not_mem distinguishes plain member waiting describedDecl
    refine ⟨linked, describedDecl, ?_, fun loose => absurd (grounds_iff.mp grounds) loose⟩
    intro _
    exact ⟨linked, rfl, Assembly.fullName_of_get? describedOther, describedOther⟩

end Binder

namespace Sample

/-- A module by itself. -/
def app (types : List TypeDecl) : Module where
  name := "App"
  types

theorem scope_app {types : List TypeDecl}
    (made : Binder.ofModule (library "Lib") [] (app types) () = (.ok binder, ()))
    (names : (types.map (·.runtimeName)).Nodup) :
    binder.scope.IsTruthful ∧ binder.scope.Distinguishes types := by
  have isOf := Binder.isOf_of_ofModule made
  have builtin : binder.scope.builtin = fun _ => none := isOf.builtin
  have alone : binder.scope.dependencies = [] := by
    have found : (Except.ok [], ()) = (Except.ok binder.scope.dependencies, ()) :=
      isOf.dependencies
    exact (Except.ok.inj (congrArg Prod.fst found)).symm
  refine ⟨?_, names, ?_, ?_⟩
  · intro name type found
    rw [builtin] at found
    cases found
  · simp [builtin]
  · simp [alone]

/-- Types that derive from one another, and one that derives from a type that exists nowhere. -/
def chain : List TypeDecl :=
  [{ space := "App", name := "Derived", base := some (.named "App.Middle") },
    { space := "App", name := "Stray", base := some (.named "App.Nowhere") },
    { space := "App", name := "Middle", base := some (.named "App.Root") },
    { space := "App", name := "Root" }]

/-- A type whose base has lost its own base. -/
def orphaned : List TypeDecl :=
  [{ space := "App", name := "Derived", base := some (.named "App.Base") },
    { space := "App", name := "Base", base := some (.named "App.Missing") }]

end Sample

namespace Binder

/-- The missing base of one type does not concern the others. -/
theorem exists_base_of_isPlain_chain :
    ∃ binder, ofModule (Sample.library "Lib") [] (Sample.app Sample.chain) () = (.ok binder, ()) ∧
      ∃ header type,
        binder.scope.own.get? "App.Derived" = some (.declared header (some type)) ∧
          type.fullName = "App.Middle" ∧ binder.scope.own.get? "App.Middle" = some type := by
  have succeeds : (ofModule (Sample.library "Lib") [] (Sample.app Sample.chain) ()).1.toOption.any
      (fun binder => (binder.scope.lookup "App.Root").isSome) = true := by decide +kernel
  obtain ⟨binder, made, found⟩ := exists_eq_ok_of_any succeeds
  obtain ⟨root, lookup⟩ := Option.isSome_iff_exists.mp found
  have made : ofModule (Sample.library "Lib") [] (Sample.app Sample.chain) () =
      (.ok binder, ()) := Prod.ext made rfl
  have names : (Sample.chain.map (·.runtimeName)).Nodup := by decide +kernel
  have plain : ∀ decl ∈ Sample.chain, ∀ base ∈ decl.base, TypeName.IsPlain base.key := by
    decide +kernel
  let derived : TypeDecl :=
    { space := "App", name := "Derived", base := some (.named "App.Middle") }
  let middle : TypeDecl := { space := "App", name := "Middle", base := some (.named "App.Root") }
  let bare : TypeDecl := { space := "App", name := "Root" }
  have key : (TypeExpr.named "App.Root").key = "App.Root" := by decide +kernel
  have grounds : binder.scope.Grounds Sample.chain middle := by
    have member : bare ∈ Sample.chain := by decide +kernel
    apply (Scope.grounds_iff_of_isPlain names member rfl (by decide +kernel) (by decide +kernel)
      (by rwa [key])).mpr
    exact .bare rfl
  have member : derived ∈ Sample.chain := by decide +kernel
  have middleMember : middle ∈ Sample.chain := by decide +kernel
  obtain ⟨found, described, keeps, _⟩ := exists_base_of_isPlain made
    (Sample.scope_app made names).2 plain member middleMember rfl (by decide +kernel)
  obtain ⟨type, rfl, named, describedMiddle⟩ := keeps grounds
  exact ⟨binder, made, _, type, described, named, describedMiddle⟩

/-- A type loses its base for good when that has lost its own, although the base resolves. -/
theorem no_base_of_missing_base :
    ∃ binder derived base,
      ofModule (Sample.library "Lib") [] (Sample.app Sample.orphaned) () = (.ok binder, ()) ∧
      binder.scope.Distinguishes Sample.orphaned ∧
      (∀ decl ∈ Sample.orphaned, ∀ base ∈ decl.base, TypeName.IsPlain base.key) ∧
      binder.scope.own.get? "App.Derived" = some derived ∧ derived.bases = [] ∧
      binder.scope.own.get? "App.Base" = some base ∧
      (binder.resolve true (.named "App.Base")).1 = .ok (some base) := by
  have succeeds :
      (ofModule (Sample.library "Lib") [] (Sample.app Sample.orphaned) ()).1.toOption.any
        (fun binder => (binder.scope.own.get? "App.Derived").any (·.bases.isEmpty) &&
          (binder.cache.lookup "App.Base").isNone) = true := by decide +kernel
  obtain ⟨binder, made, both⟩ := exists_eq_ok_of_any succeeds
  rw [Bool.and_eq_true] at both
  obtain ⟨derived, described, empty⟩ := (Option.any_eq_true ..).mp both.1
  have made : ofModule (Sample.library "Lib") [] (Sample.app Sample.orphaned) () =
      (.ok binder, ()) := Prod.ext made rfl
  have distinguishes := (Sample.scope_app made (by decide +kernel)).2
  let orphan : TypeDecl := { space := "App", name := "Base", base := some (.named "App.Missing") }
  have member : orphan ∈ Sample.orphaned := by decide +kernel
  have named : orphan.runtimeName = "App.Base" := by decide +kernel
  obtain ⟨base, describedBase⟩ :=
    Option.isSome_iff_exists.mp ((isOf_of_ofModule made).declared orphan member)
  have lookup := distinguishes.lookup_eq member
  rw [named] at describedBase lookup
  refine ⟨binder, derived, base, made, distinguishes, by decide +kernel, described,
    List.isEmpty_iff.mp empty, describedBase, ?_⟩
  have key : (TypeExpr.named "App.Base").key = "App.Base" := by decide +kernel
  have resolved : (binder.resolve true (.named "App.Base")).1 = _ :=
    Scope.resolve_plain (by decide +kernel) binder.cache
  rw [resolved, key, Option.isNone_iff_eq_none.mp both.2, lookup, describedBase]
  rfl

end Binder

/-! ## Bases that mention each other -/

namespace Module

/-- The base of the one type of the module mentions the other. -/
def Needs (module : Module) (decl other : TypeDecl) : Prop :=
  decl ∈ module.types ∧ other ∈ module.types ∧
    ∃ base, decl.base = some base ∧ base.Mentions other.runtimeName

open Relation (ReflTransGen TransGen)

/-- Among finitely many types, those from which no type is reached that needs itself come to an end,
and are grounded if the bases on the way are covered. -/
theorem grounds_of_acyclic (member : decl ∈ module.types)
    (covered : ∀ other, ReflTransGen module.Needs decl other → ∀ base, other.base = some base →
      scope.Covers Scope.depthLimit base)
    (acyclic : ∀ other, ReflTransGen module.Needs decl other →
      ¬ TransGen module.Needs other other) : scope.Grounds module.types decl := by
  let Reached := { other // other ∈ module.types ∧ ReflTransGen module.Needs decl other }
  have finite : Finite Reached :=
    (module.types.finite_toSet.subset fun _ reached => reached.1).to_subtype
  let needed (first second : Reached) : Prop := TransGen module.Needs second.1 first.1
  have transitive : IsTrans Reached needed := ⟨fun _ _ _ first second => second.trans first⟩
  have irreflexive : Std.Irrefl needed := ⟨fun other => acyclic other.1 other.2.2⟩
  have wellFounded : WellFounded needed := Finite.wellFounded_of_trans_of_irrefl needed
  suffices each : ∀ other : Reached, scope.Grounds module.types other.1 from
    each ⟨decl, member, .refl⟩
  intro other
  induction other using wellFounded.induction with
  | _ other ih =>
      obtain ⟨other, otherMember, reached⟩ := other
      cases hasBase : other.base with
      | none => exact .bare hasBase
      | some base =>
          refine .base hasBase (covered other reached base hasBase) ?_
          intro next nextMember mentions
          have needs : module.Needs other next := ⟨otherMember, nextMember, base, hasBase, mentions⟩
          exact ih ⟨next, nextMember, reached.tail needs⟩ (.single needs)

end Module

namespace Binder

open Relation (ReflTransGen TransGen)

/-- A type keeps its base, and the base goes by the name that the type gives it, if all names that
are mentioned on the way are found and no type on the way needs itself. -/
theorem exists_base_of_acyclic (made : ofModule env directories module world = (.ok binder, ended))
    (truthful : binder.scope.IsTruthful) (distinguishes : binder.scope.Distinguishes module.types)
    {decl : TypeDecl} (member : decl ∈ module.types)
    (covered : ∀ other, ReflTransGen module.Needs decl other → ∀ base, other.base = some base →
      binder.scope.Covers Scope.depthLimit base)
    (acyclic : ∀ other, ReflTransGen module.Needs decl other → ¬ TransGen module.Needs other other)
    {base : TypeExpr} (hasBase : decl.base = some base) :
    ∃ type, binder.scope.own.get? decl.runtimeName =
        some (.declared (decl.header module.name) (some type)) ∧
      (TypeName.IsBlankFree base.key.toList → type.fullName = base.key) := by
  have upheld (own : Assembly) : ({ binder.scope with own } : Scope).IsTruthful := truthful
  obtain ⟨early, stuck, outcome⟩ := exists_isOutcome made distinguishes fun own =>
    (upheld own).upholds
  have grounds := module.grounds_of_acyclic member covered acyclic
  obtain ⟨found, described, links⟩ :=
    outcome.linked decl member (outcome.not_mem_of_grounds grounds)
  cases found with
  | none =>
      rw [links] at hasBase
      cases hasBase
  | some type =>
      obtain ⟨_, sameBase, goesBy, _⟩ := links
      rw [hasBase] at sameBase
      cases sameBase
      exact ⟨type, described, goesBy⟩

end Binder

namespace Sample

/-- A generic definition applied to a type of the module. -/
def entity (argument : String) : TypeExpr :=
  .applied (.named "App.Entity`1") [.named argument]

/-- Types that derive from applications of a definition to one another. -/
def entities : List TypeDecl :=
  [{ space := "App", name := "Order", base := some (entity "App.Person") },
    { space := "App", name := "Person", base := some (entity "App.Key") },
    { space := "App", name := "Entity`1" },
    { space := "App", name := "Key" }]

/-- A type that derives from an application of a definition to itself. -/
def curious : List TypeDecl :=
  [{ space := "App", name := "Entity`1" },
    { space := "App", name := "Person", base := some (entity "App.Person") }]

theorem mentions_entity {argument name : String}
    (plain : TypeName.IsPlain (TypeExpr.named argument).key) :
    (entity argument).Mentions name ↔
      "App.Entity`1" = name ∨ (TypeExpr.named argument).key = name := by
  have generic : (TypeExpr.named "App.Entity`1").key = "App.Entity`1" := by decide +kernel
  have applied : (entity argument).shape =
      .application (.named "App.Entity`1") [.named argument] := rfl
  rw [TypeExpr.mentions_iff_of_application applied,
    TypeExpr.mentions_iff_of_isPlain (by decide +kernel), generic]
  simp [TypeExpr.mentions_iff_of_isPlain plain]

theorem covers_entity {argument : String}
    (plain : TypeName.IsPlain (TypeExpr.named argument).key) {definition type : Descriptor}
    (generic : scope.lookup "App.Entity`1" = some definition) (takesOne : definition.arity = 1)
    (found : scope.lookup (TypeExpr.named argument).key = some type) (depth : Nat) :
    scope.Covers (depth + 2) (entity argument) := by
  have key : (TypeExpr.named "App.Entity`1").key = "App.Entity`1" := by decide +kernel
  have elementPlain : TypeName.IsPlain (TypeExpr.named "App.Entity`1").key := by decide +kernel
  have elementFound : scope.lookup (TypeExpr.named "App.Entity`1").key = some definition := by
    rwa [key]
  refine .application rfl elementPlain elementFound (List.cons_ne_nil _ _) takesOne ?_
  intro part member
  simp only [List.mem_cons, List.not_mem_nil, or_false] at member
  rcases member with rfl | rfl
  · exact .plain elementPlain elementFound
  · exact .plain plain found

end Sample

namespace Binder

open Relation (ReflTransGen TransGen)

/-- A type whose base is applied to a type with such a base. -/
theorem exists_base_of_acyclic_order :
    ∃ binder, ofModule (Sample.library "Lib") [] (Sample.app Sample.entities) () =
        (.ok binder, ()) ∧ ∃ header type,
      binder.scope.own.get? "App.Order" = some (.declared header (some type)) ∧
        type.fullName = "App.Entity`1[App.Person]" := by
  have succeeds :
      (ofModule (Sample.library "Lib") [] (Sample.app Sample.entities) ()).1.toOption.any
        (fun binder => (binder.scope.lookup "App.Entity`1").any (·.arity == 1) &&
          ((binder.scope.lookup "App.Person").isSome &&
            (binder.scope.lookup "App.Key").isSome)) = true := by decide +kernel
  obtain ⟨binder, made, all⟩ := exists_eq_ok_of_any succeeds
  rw [Bool.and_eq_true, Bool.and_eq_true] at all
  obtain ⟨generic, foundPerson, foundKey⟩ := all
  obtain ⟨definition, generic, takesOne⟩ := (Option.any_eq_true ..).mp generic
  obtain ⟨person, foundPerson⟩ := Option.isSome_iff_exists.mp foundPerson
  obtain ⟨key, foundKey⟩ := Option.isSome_iff_exists.mp foundKey
  have made : ofModule (Sample.library "Lib") [] (Sample.app Sample.entities) () =
      (.ok binder, ()) := Prod.ext made rfl
  obtain ⟨truthful, distinguishes⟩ := Sample.scope_app made (by decide +kernel)
  have personKey : (TypeExpr.named "App.Person").key = "App.Person" := by decide +kernel
  have keyKey : (TypeExpr.named "App.Key").key = "App.Key" := by decide +kernel
  have personPlain : TypeName.IsPlain (TypeExpr.named "App.Person").key := by decide +kernel
  have keyPlain : TypeName.IsPlain (TypeExpr.named "App.Key").key := by decide +kernel
  have bases : ∀ decl ∈ Sample.entities, ∀ base, decl.base = some base →
      decl.runtimeName = "App.Order" ∧ base = Sample.entity "App.Person" ∨
        decl.runtimeName = "App.Person" ∧ base = Sample.entity "App.Key" := by
    decide +kernel
  have covered : ∀ decl ∈ Sample.entities, ∀ base, decl.base = some base →
      binder.scope.Covers Scope.depthLimit base := by
    intro decl member base hasBase
    rcases bases decl member base hasBase with ⟨_, rfl⟩ | ⟨_, rfl⟩
    · exact Sample.covers_entity personPlain generic (by simpa using takesOne)
        (by rwa [personKey]) 98
    · exact Sample.covers_entity keyPlain generic (by simpa using takesOne) (by rwa [keyKey]) 98
  let rank (name : String) : Nat :=
    if name = "App.Order" then 2 else if name = "App.Person" then 1 else 0
  have falls : ∀ {decl other : TypeDecl}, (Sample.app Sample.entities).Needs decl other →
      rank other.runtimeName < rank decl.runtimeName := by
    rintro decl other ⟨member, _, base, hasBase, mentions⟩
    rcases bases decl member base hasBase with ⟨named, rfl⟩ | ⟨named, rfl⟩
    · rw [named]
      rcases (Sample.mentions_entity personPlain).mp mentions with same | same <;> rw [← same]
      · decide +kernel
      · decide +kernel
    · rw [named]
      rcases (Sample.mentions_entity keyPlain).mp mentions with same | same <;> rw [← same]
      · decide +kernel
      · decide +kernel
  have falls : ∀ {decl other : TypeDecl}, TransGen (Sample.app Sample.entities).Needs decl other →
      rank other.runtimeName < rank decl.runtimeName := by
    intro decl other needs
    induction needs with
    | single needs => exact falls needs
    | tail _ needs ih => exact (falls needs).trans ih
  let order : TypeDecl :=
    { space := "App", name := "Order", base := some (Sample.entity "App.Person") }
  have member : order ∈ Sample.entities := by decide +kernel
  have reached : ∀ {other : TypeDecl}, ReflTransGen (Sample.app Sample.entities).Needs order other →
      other ∈ Sample.entities := by
    intro other reaches
    cases reaches with
    | refl => exact member
    | tail _ needs => exact needs.2.1
  obtain ⟨type, described, named⟩ := exists_base_of_acyclic made truthful distinguishes member
    (fun other reaches => covered other (reached reaches))
    (fun other _ cycle => (falls cycle).false) rfl
  have written : (Sample.entity "App.Person").key = "App.Entity`1[App.Person]" := by
    decide +kernel
  rw [written] at named
  exact ⟨binder, made, _, type, described, named (by decide +kernel)⟩

/-- A type loses a base that mentions the type itself, although the base resolves. -/
theorem no_base_of_curious :
    ∃ binder person base,
      ofModule (Sample.library "Lib") [] (Sample.app Sample.curious) () = (.ok binder, ()) ∧
      binder.scope.IsTruthful ∧ binder.scope.Distinguishes Sample.curious ∧
      binder.scope.Covers Scope.depthLimit (Sample.entity "App.Person") ∧
      binder.scope.own.get? "App.Person" = some person ∧ person.bases = [] ∧
      (binder.resolve true (Sample.entity "App.Person")).1 = .ok (some base) ∧
      base.fullName = "App.Entity`1[App.Person]" := by
  have succeeds :
      (ofModule (Sample.library "Lib") [] (Sample.app Sample.curious) ()).1.toOption.any
        (fun binder => (binder.scope.lookup "App.Entity`1").any (·.arity == 1) &&
          ((binder.scope.own.get? "App.Person").any (·.bases.isEmpty) &&
            (binder.resolve true (Sample.entity "App.Person")).1.toOption.any
              (·.any (·.fullName == "App.Entity`1[App.Person]")))) = true := by decide +kernel
  obtain ⟨binder, made, all⟩ := exists_eq_ok_of_any succeeds
  rw [Bool.and_eq_true, Bool.and_eq_true] at all
  obtain ⟨generic, described, resolved⟩ := all
  obtain ⟨definition, generic, takesOne⟩ := (Option.any_eq_true ..).mp generic
  obtain ⟨person, described, empty⟩ := (Option.any_eq_true ..).mp described
  obtain ⟨answer, resolved, named⟩ := exists_eq_ok_of_any resolved
  obtain ⟨base, rfl, named⟩ := (Option.any_eq_true ..).mp named
  have made : ofModule (Sample.library "Lib") [] (Sample.app Sample.curious) () =
      (.ok binder, ()) := Prod.ext made rfl
  obtain ⟨truthful, distinguishes⟩ := Sample.scope_app made (by decide +kernel)
  have key : (TypeExpr.named "App.Person").key = "App.Person" := by decide +kernel
  have member : ({ space := "App", name := "Person", base := some (Sample.entity "App.Person") } :
      TypeDecl) ∈ Sample.curious := by decide +kernel
  have found : binder.scope.lookup (TypeExpr.named "App.Person").key = some person := by
    rw [key, ← described]
    exact distinguishes.lookup_eq member
  have covers : binder.scope.Covers Scope.depthLimit (Sample.entity "App.Person") :=
    Sample.covers_entity (by decide +kernel) generic (by simpa using takesOne) found 98
  exact ⟨binder, person, base, made, truthful, distinguishes, covers, described,
    List.isEmpty_iff.mp empty, resolved, by simpa using named⟩

end Binder

end Splice
