import Splice.Proofs.Binding.Naming

/-!
# Rounds

How the types of a module are described. A base is resolved before the type itself is described, so
types are described in rounds: each round describes the types whose bases resolve by their turn, and
those that are left once a round gets no further are described without their bases.

An expression is covered by a scope when everything that it comes down to is found there. A type
that is left has a base that is not covered by the scope of the last round.
-/

namespace Splice

variable {scope early other : Scope} {strict : Bool} {holds : String → Descriptor → Prop}
variable {depth : Nat} {cache : Cache} {name : String} {type : Descriptor} {expr : TypeExpr}
variable {exprs : List TypeExpr} {α β : Type} {binder between : Binder} {decl : TypeDecl}
variable {decls left rest extra pending stuck : List TypeDecl} {σ : Type}
variable {env : Environment σ} {directories : List String} {module : Module} {world ended : σ}

/-! ## Expressions that can be resolved -/

namespace Scope

/-- All that the expression comes down to is found, in fewer than so many steps, and each definition
is applied to as many arguments as it takes. -/
inductive Covers (scope : Scope) : Nat → TypeExpr → Prop where
  | plain {depth : Nat} {expr : TypeExpr} {type : Descriptor} : TypeName.IsPlain expr.key →
      scope.lookup expr.key = some type → Covers scope (depth + 1) expr
  | application {depth : Nat} {expr element : TypeExpr} {arguments : List TypeExpr}
      {definition : Descriptor} : expr.shape = .application element arguments →
      TypeName.IsPlain element.key → scope.lookup element.key = some definition →
      arguments ≠ [] → definition.arity = arguments.length →
      (∀ part ∈ element :: arguments, Covers scope depth part) → Covers scope (depth + 1) expr
  | modification {depth : Nat} {expr : TypeExpr} {element modifier : String} :
      expr.shape = .modification element modifier → Covers scope depth (.named element) →
      Covers scope (depth + 1) expr

/-- It is enough that the names that the expression mentions are found alike. -/
theorem Covers.congr (covers : scope.Covers depth expr)
    (same : ∀ name, expr.Mentions name → other.lookup name = scope.lookup name) :
    other.Covers depth expr := by
  induction covers with
  | plain isPlain found =>
      apply Covers.plain isPlain
      rw [same _ (.plain (TypeExpr.shape_of_isPlain isPlain) rfl)]
      exact found
  | application shape isPlain found full fits _ ih =>
      refine .application shape isPlain ?_ full fits ?_
      · rw [same _ (.element shape (.plain (TypeExpr.shape_of_isPlain isPlain) rfl))]
        exact found
      · intro part member
        apply ih part member
        intro name mentions
        rcases List.mem_cons.mp member with rfl | argument
        · exact same name (.element shape mentions)
        · exact same name (.argument shape argument mentions)
  | modification shape _ ih =>
      apply Covers.modification shape
      apply ih
      intro name mentions
      exact same name (.modified shape mentions)

/-- The scope finds the type under the name, if that is plain. -/
def Finds (scope : Scope) (name : String) (type : Descriptor) : Prop :=
  TypeName.IsPlain name → scope.lookup name = some type

theorem upholds_finds (scope : Scope) : scope.Upholds scope.Finds where
  plain _ found _ := found
  application := by
    intro expr element arguments definition types type shape _ _ _ plain
    rw [TypeExpr.shape_of_isPlain plain] at shape
    cases shape
  modification := by
    intro expr element modifier type base shape _ plain
    rw [TypeExpr.shape_of_isPlain plain] at shape
    cases shape

/-- Something was found. -/
def Answers (result : Cached (Option α)) : Prop :=
  ∃ value, result.1 = .ok (some value)

namespace Answers

variable {resolve : TypeExpr → Cache → Cached (Option Descriptor)}

theorem andThen {result : Cached (Option α)} {next : α → Cache → Cached (Option β)}
    (answers : Answers result)
    (goesOn : ∀ value, result.1 = .ok (some value) → Answers (next value result.2)) :
    Answers (Scope.andThen result next) := by
  obtain ⟨answer, between⟩ := result
  obtain ⟨value, same⟩ := answers
  cases same
  exact goesOn value rfl

theorem keep {result : Cached (Option Descriptor)} (answers : Answers result) (strict : Bool)
    (key : String) : Answers (Scope.keep strict key result) := by
  obtain ⟨answer, between⟩ := result
  obtain ⟨type, same⟩ := answers
  cases same
  rw [Scope.keep]
  split
  next earlier _ => exact ⟨earlier, rfl⟩
  next => exact ⟨type, rfl⟩

theorem resolveEach (keeps : ∀ (expr : TypeExpr) (cache : Cache), cache.Holds holds →
      Keeps holds cache (holds expr.key) (resolve expr cache)) (held : cache.Holds holds)
    (answers : ∀ expr ∈ exprs, ∀ cache, Cache.Holds cache holds → Answers (resolve expr cache)) :
    Answers (Scope.resolveEach resolve exprs cache) := by
  induction exprs generalizing cache with
  | nil => exact ⟨[], rfl⟩
  | cons expr rest ih =>
      rw [resolveEach_cons]
      apply (answers expr List.mem_cons_self cache held).andThen
      intro type _
      have others := ih (keeps expr cache held).holds fun other member =>
        answers other (List.mem_cons_of_mem _ member)
      apply others.andThen
      intro types _
      exact ⟨type :: types, rfl⟩

/-- It is enough that the parts are found, unless the cache has the whole. -/
theorem resolveWithin
    (answers : Answers (scope.resolveParts (scope.resolveWithin strict depth) expr cache)) :
    Answers (scope.resolveWithin strict (depth + 1) expr cache) := by
  cases known : cache.lookup expr.key with
  | some earlier => exact ⟨earlier, by rw [resolveWithin_of_known known]⟩
  | none =>
      rw [resolveWithin_of_unknown known]
      exact answers.keep strict expr.key

end Answers

/-- An expression that is covered resolves, whatever the cache has. -/
theorem Covers.answers (covers : scope.Covers depth expr) (strict : Bool)
    (held : cache.Holds scope.Finds) : Answers (scope.resolveWithin strict depth expr cache) := by
  induction covers generalizing cache with
  | @plain depth expr type isPlain found =>
      apply Answers.resolveWithin
      rw [resolveParts_plain (TypeExpr.shape_of_isPlain isPlain)]
      exact ⟨type, congrArg Except.ok found⟩
  | @application depth expr element arguments definition shape isPlain found full fits _ ih =>
      have keeps := fun (expr : TypeExpr) (cache : Cache) (held : cache.Holds scope.Finds) =>
        keeps_resolveWithin (upholds_finds scope) strict depth expr held
      apply Answers.resolveWithin
      rw [resolveParts, shape]
      dsimp only
      rw [resolveApplication_eq]
      apply (ih element List.mem_cons_self held).andThen
      intro answer resolved
      have elementKeeps := keeps element cache held
      have same : some answer = some definition :=
        (elementKeeps.good answer resolved isPlain).symm.trans found
      cases same
      have each : Answers (resolveEach (scope.resolveWithin strict depth) arguments
          (scope.resolveWithin strict depth element cache).2) :=
        .resolveEach keeps elementKeeps.holds fun argument member cache held =>
          ih argument (List.mem_cons_of_mem _ member) held
      apply each.andThen
      intro types answered
      have counted : arguments.length = types.length :=
        ((keeps_resolveEach keeps elementKeeps.holds).good types answered).length_eq
      refine ⟨.closed definition types, ?_⟩
      rw [Descriptor.close, if_neg]
      · rfl
      · rw [← counted, fits]
        simp [full]
  | @modification depth expr element modifier shape _ ih =>
      apply Answers.resolveWithin
      rw [resolveParts, shape]
      dsimp only
      rw [resolveModification_eq]
      apply (ih held).andThen
      intro type _
      exact ⟨_, rfl⟩

end Scope

/-! ## Rounds -/

/-- The types have names of their own: no two share one, and no type from elsewhere has one. -/
structure Scope.Distinguishes (scope : Scope) (decls : List TypeDecl) : Prop where
  names : (decls.map (·.runtimeName)).Nodup
  builtin : ∀ decl ∈ decls, scope.builtin decl.runtimeName = none
  dependencies : ∀ decl ∈ decls, ∀ assembly ∈ scope.dependencies,
    assembly.get? decl.runtimeName = none

/-- The type is described with what its base resolves to, which the property holds of. -/
def Scope.Links (scope : Scope) (holds : String → Descriptor → Prop) (decl : TypeDecl) :
    Option Descriptor → Prop
  | none => decl.base = none
  | some type => ∃ base, decl.base = some base ∧ holds base.key type ∧ scope.Finds base.key type

theorem Scope.get?_eq_none_of_lookup (missing : scope.lookup name = none) :
    scope.own.get? name = none := by
  rw [lookup, Option.or_eq_none_iff, Option.or_eq_none_iff] at missing
  exact missing.2.1

namespace Binder

/-- A state of a binder that still has some of the types to describe. The property is one that
resolutions uphold, whatever types are described. -/
structure IsMidway (holds : String → Descriptor → Prop) (decls left : List TypeDecl)
    (binder : Binder) : Prop where
  upholds : ∀ own : Assembly, ({ binder.scope with own } : Scope).Upholds holds
  held : binder.cache.Holds holds
  /-- No base has fixed a name that is still to be described. -/
  finds : binder.cache.Holds binder.scope.Finds
  among : left ⊆ decls
  distinct : (left.map (·.runtimeName)).Nodup
  missing : ∀ decl ∈ left, binder.scope.lookup decl.runtimeName = none
  /-- The types that are not left are described with their bases. -/
  described : ∀ decl ∈ decls, decl ∈ left ∨ ∃ base, binder.scope.own.get? decl.runtimeName =
    some (.declared (decl.header binder.scope.own.name) base) ∧ binder.scope.Links holds decl base

theorem lookup_declare (binder : Binder) (decl : TypeDecl) (base : Option Descriptor)
    (other : decl.runtimeName ≠ name) :
    (binder.declare decl base).scope.lookup name = binder.scope.lookup name := by
  rw [Scope.lookup, Describes.get?_declare, if_neg other]
  rfl

/-- A type that was not found before takes no name from another. -/
theorem finds_declare (missing : binder.scope.lookup decl.runtimeName = none)
    (base : Option Descriptor) (finds : binder.scope.Finds name type) :
    (binder.declare decl base).scope.Finds name type := by
  intro plain
  have found := finds plain
  rw [lookup_declare]
  · exact found
  · rintro rfl
    rw [missing] at found
    cases found

theorem links_declare {linked : TypeDecl} {found : Option Descriptor}
    (missing : binder.scope.lookup decl.runtimeName = none) (base : Option Descriptor)
    (links : binder.scope.Links holds linked found) :
    (binder.declare decl base).scope.Links holds linked found := by
  cases found with
  | none => exact links
  | some type =>
      obtain ⟨expr, hasBase, held, finds⟩ := links
      exact ⟨expr, hasBase, held, finds_declare missing base finds⟩

/-- Describe types without their bases. -/
def declareBare (binder : Binder) (decls : List TypeDecl) : Binder :=
  decls.foldl (fun binder decl => binder.declare decl none) binder

namespace IsMidway

theorem perm (midway : IsMidway holds decls left binder) (perm : left.Perm rest) :
    IsMidway holds decls rest binder where
  upholds := midway.upholds
  held := midway.held
  finds := midway.finds
  among _ member := midway.among (perm.mem_iff.mpr member)
  distinct := (perm.map _).nodup_iff.mp midway.distinct
  missing decl member := midway.missing decl (perm.mem_iff.mpr member)
  described decl member := (midway.described decl member).imp_left perm.mem_iff.mp

theorem resolve (midway : IsMidway holds decls left binder) (strict : Bool) (expr : TypeExpr) :
    IsMidway holds decls left (binder.resolve strict expr).2 where
  upholds := midway.upholds
  held := (keeps_resolve (midway.upholds _) midway.held strict expr).holds
  finds := (keeps_resolve (Scope.upholds_finds _) midway.finds strict expr).holds
  among := midway.among
  distinct := midway.distinct
  missing := midway.missing
  described := midway.described

theorem declare (midway : IsMidway holds decls (decl :: left) binder) {base : Option Descriptor}
    (links : binder.scope.Links holds decl base) :
    IsMidway holds decls left (binder.declare decl base) := by
  have missing := midway.missing decl List.mem_cons_self
  have distinct := midway.distinct
  rw [List.map_cons, List.nodup_cons] at distinct
  have apart : ∀ other ∈ left, decl.runtimeName ≠ other.runtimeName := fun other member same =>
    distinct.1 (same ▸ List.mem_map_of_mem member)
  refine ⟨midway.upholds, midway.held, ?_, ?_, distinct.2, ?_, ?_⟩
  · intro name type known
    exact finds_declare missing base (midway.finds name type known)
  · exact List.subset_of_cons_subset midway.among
  · intro other member
    rw [lookup_declare _ _ _ (apart other member)]
    exact midway.missing other (List.mem_cons_of_mem _ member)
  · intro other member
    rcases midway.described other member with waiting | ⟨found, described, linked⟩
    · rcases List.mem_cons.mp waiting with rfl | waiting
      · refine .inr ⟨base, ?_, links_declare missing base links⟩
        rw [Describes.get?_declare, if_pos rfl]
        rfl
      · exact .inl waiting
    · refine .inr ⟨found, ?_, links_declare missing base linked⟩
      rw [Describes.get?_declare, if_neg]
      · exact described
      · intro same
        have nothing := Scope.get?_eq_none_of_lookup missing
        rw [same, described] at nothing
        cases nothing

/-- A base that is found is linked. -/
theorem baseOf (midway : IsMidway holds decls left binder) {found : Option (Option Descriptor)}
    (sought : binder.baseOf decl = (found, between)) :
    IsMidway holds decls left between ∧ ∀ base, found = some base →
      between.scope.Links holds decl base := by
  rcases baseOf_cases sought with ⟨bare, rfl, rfl⟩ |
    ⟨base, hasBase, rfl, ⟨type, answered, rfl⟩ | ⟨rfl, _⟩⟩
  · refine ⟨midway, ?_⟩
    rintro _ ⟨⟩
    exact bare
  · refine ⟨midway.resolve false base, ?_⟩
    rintro _ ⟨⟩
    exact ⟨base, hasBase,
      (keeps_resolve (midway.upholds _) midway.held false base).good type answered,
      (keeps_resolve (Scope.upholds_finds _) midway.finds false base).good type answered⟩
  · exact ⟨midway.resolve false base, nofun⟩

/-- A base that is covered is found. -/
theorem uncovered_of_baseOf (midway : IsMidway holds decls left binder)
    (sought : binder.baseOf decl = (none, between)) :
    between.scope = binder.scope ∧ ∃ base, decl.base = some base ∧
      ¬ binder.scope.Covers Scope.depthLimit base := by
  rcases baseOf_cases sought with ⟨_, _, found⟩ |
    ⟨base, hasBase, rfl, ⟨_, _, found⟩ | ⟨_, unanswered⟩⟩
  · cases found
  · cases found
  · refine ⟨rfl, base, hasBase, ?_⟩
    intro covers
    obtain ⟨type, answered⟩ := covers.answers false midway.finds
    exact unanswered type answered

theorem append_nil (midway : IsMidway holds decls left binder) :
    IsMidway holds decls (left ++ []) binder := by rwa [List.append_nil]

/-- A round leaves a state of the same kind. -/
theorem describeReady (midway : IsMidway holds decls (pending ++ extra) binder)
    (ready : binder.describeReady pending = (left, between)) :
    IsMidway holds decls (left ++ extra) between := by
  -- What the round has left so far is among `extra`.
  induction pending generalizing binder left extra with
  | nil =>
      cases ready
      exact midway
  | cons decl rest ih =>
      rw [Binder.describeReady] at ready
      split at ready
      next base next sought =>
        obtain ⟨after, links⟩ := midway.baseOf sought
        exact ih (after.declare (links base rfl)) ready
      next next sought =>
        cases readyRest : next.describeReady rest with
        | mk leftRest last =>
        rw [readyRest] at ready
        cases ready
        have after := (midway.baseOf sought).1.perm List.perm_middle.symm
        exact (ih after readyRest).perm List.perm_middle

/-- A round that describes no type changes no scope: no base is covered. -/
theorem stuck_describeReady (midway : IsMidway holds decls (pending ++ extra) binder)
    (ready : binder.describeReady pending = (left, between)) :
    left.length ≤ pending.length ∧ (left.length = pending.length →
      left = pending ∧ between.scope = binder.scope ∧ ∀ decl ∈ pending, ∃ base,
        decl.base = some base ∧ ¬ binder.scope.Covers Scope.depthLimit base) := by
  induction pending generalizing binder left extra with
  | nil =>
      cases ready
      exact ⟨le_rfl, fun _ => ⟨rfl, rfl, nofun⟩⟩
  | cons decl rest ih =>
      rw [Binder.describeReady] at ready
      split at ready
      next base next sought =>
        -- A type that is described makes the rest too short to be as long as before.
        obtain ⟨after, links⟩ := midway.baseOf sought
        obtain ⟨shorter, _⟩ := ih (after.declare (links base rfl)) ready
        refine ⟨Nat.le_succ_of_le shorter, ?_⟩
        intro same
        rw [List.length_cons] at same
        omega
      next next sought =>
        cases readyRest : next.describeReady rest with
        | mk leftRest last =>
        rw [readyRest] at ready
        cases ready
        have after := (midway.baseOf sought).1.perm List.perm_middle.symm
        obtain ⟨shorter, stuck⟩ := ih after readyRest
        refine ⟨Nat.succ_le_succ shorter, ?_⟩
        intro same
        obtain ⟨rfl, sameScope, uncovered⟩ := stuck (Nat.succ.inj same)
        obtain ⟨scopeSought, here⟩ := midway.uncovered_of_baseOf sought
        rw [scopeSought] at sameScope uncovered
        exact ⟨rfl, sameScope, List.forall_mem_cons.mpr ⟨here, uncovered⟩⟩

/-- Describing types comes to a state in which the base of no type that is left is covered. The
types that are left are then described without a base. -/
theorem exists_stuck (midway : IsMidway holds decls pending binder) :
    ∃ between stuck, IsMidway holds decls stuck between ∧
      (∀ decl ∈ stuck, ∃ base, decl.base = some base ∧
        ¬ between.scope.Covers Scope.depthLimit base) ∧
      binder.describe pending = between.declareBare stuck := by
  induction binder, pending using describe.induct with
  | case1 binder pending left between ready fewer ih =>
      have after := midway.append_nil.describeReady ready
      rw [List.append_nil] at after
      rw [describe, ready]
      simp only [if_pos fewer]
      exact ih after
  | case2 binder pending left between ready stuck =>
      have after := midway.append_nil.describeReady ready
      obtain ⟨shorter, stays⟩ := midway.append_nil.stuck_describeReady ready
      obtain ⟨rfl, sameScope, uncovered⟩ := stays (Nat.le_antisymm shorter (Nat.not_lt.mp stuck))
      rw [describe, ready]
      simp only [if_neg stuck]
      rw [List.append_nil] at after
      rw [← sameScope] at uncovered
      exact ⟨between, left, after, uncovered, rfl⟩

end IsMidway

/-! ## How it ends -/

theorem frame_declareBare (binder : Binder) (decls : List TypeDecl) :
    (binder.declareBare decls).cache = binder.cache ∧
      (binder.declareBare decls).scope =
        { binder.scope with own := (binder.declareBare decls).scope.own } ∧
      (binder.declareBare decls).scope.own.name = binder.scope.own.name := by
  induction decls generalizing binder with
  | nil => exact ⟨rfl, rfl, rfl⟩
  | cons decl rest ih => exact ih (binder.declare decl none)

theorem get?_declareBare_of_ne (binder : Binder)
    (other : ∀ decl ∈ decls, decl.runtimeName ≠ name) :
    (binder.declareBare decls).scope.own.get? name = binder.scope.own.get? name := by
  induction decls generalizing binder with
  | nil => rfl
  | cons decl rest ih =>
      obtain ⟨apart, others⟩ := List.forall_mem_cons.mp other
      refine (ih (binder.declare decl none) others).trans ?_
      rw [Describes.get?_declare, if_neg apart]

theorem lookup_declareBare (binder : Binder)
    (other : ∀ decl ∈ decls, decl.runtimeName ≠ name) :
    (binder.declareBare decls).scope.lookup name = binder.scope.lookup name := by
  obtain ⟨_, scope, _⟩ := frame_declareBare binder decls
  rw [Scope.lookup, get?_declareBare_of_ne binder other, scope]
  rfl

theorem get?_declareBare (binder : Binder) (distinct : (decls.map (·.runtimeName)).Nodup) :
    ∀ decl ∈ decls, (binder.declareBare decls).scope.own.get? decl.runtimeName =
      some (.declared (decl.header binder.scope.own.name) none) := by
  induction decls generalizing binder with
  | nil => exact nofun
  | cons first rest ih =>
      rw [List.map_cons, List.nodup_cons] at distinct
      intro decl member
      rcases List.mem_cons.mp member with rfl | member
      · have apart : ∀ other ∈ rest, other.runtimeName ≠ decl.runtimeName :=
          fun other member same => distinct.1 (same ▸ List.mem_map_of_mem member)
        refine (get?_declareBare_of_ne (binder.declare decl none) apart).trans ?_
        rw [Describes.get?_declare, if_pos rfl]
      · exact ih (binder.declare first none) distinct.2 decl member

/-- What becomes of the types of a module. Some are stuck: the scope of the last round, in which all
others are described, does not cover their bases, and they are described without them. -/
structure IsOutcome (holds : String → Descriptor → Prop) (module : Module) (early : Scope)
    (stuck : List TypeDecl) (binder : Binder) : Prop where
  held : binder.cache.Holds holds
  finds : binder.cache.Holds binder.scope.Finds
  among : stuck ⊆ module.types
  bare : ∀ decl ∈ stuck, binder.scope.own.get? decl.runtimeName =
    some (.declared (decl.header module.name) none)
  uncovered : ∀ decl ∈ stuck, ∃ base, decl.base = some base ∧
    ¬ early.Covers Scope.depthLimit base
  missing : ∀ decl ∈ stuck, early.lookup decl.runtimeName = none
  same : ∀ name, (∀ decl ∈ stuck, decl.runtimeName ≠ name) →
    binder.scope.lookup name = early.lookup name
  linked : ∀ decl ∈ module.types, decl ∉ stuck → ∃ base,
    binder.scope.own.get? decl.runtimeName = some (.declared (decl.header module.name) base) ∧
      early.Links holds decl base

namespace IsOutcome

theorem of_isMidway (midway : IsMidway holds module.types stuck between)
    (named : between.scope.own.name = module.name)
    (uncovered : ∀ decl ∈ stuck, ∃ base, decl.base = some base ∧
      ¬ between.scope.Covers Scope.depthLimit base) :
    IsOutcome holds module between.scope stuck (between.declareBare stuck) := by
  obtain ⟨cache, _, _⟩ := frame_declareBare between stuck
  have apart : ∀ {name : String} {type : Descriptor}, between.scope.lookup name = some type →
      ∀ decl ∈ stuck, decl.runtimeName ≠ name := by
    rintro name type found decl member rfl
    rw [midway.missing decl member] at found
    cases found
  refine ⟨?_, ?_, midway.among, ?_, uncovered, midway.missing, ?_, ?_⟩
  · rw [cache]
    exact midway.held
  · intro name type known plain
    rw [cache] at known
    have found := midway.finds name type known plain
    rw [lookup_declareBare between (apart found), found]
  · rw [← named]
    exact get?_declareBare between midway.distinct
  · intro name other
    exact lookup_declareBare between other
  · intro decl member notStuck
    obtain ⟨base, described, links⟩ := (midway.described decl member).resolve_left notStuck
    refine ⟨base, ?_, links⟩
    rw [get?_declareBare_of_ne, described, named]
    intro other otherMember same
    have nothing := Scope.get?_eq_none_of_lookup (midway.missing other otherMember)
    rw [same, described] at nothing
    cases nothing

end IsOutcome

/-- Describing a module whose types have names of their own comes to an outcome. -/
theorem exists_isOutcome (made : ofModule env directories module world = (.ok binder, ended))
    (distinguishes : binder.scope.Distinguishes module.types)
    (upholds : ∀ own : Assembly, ({ binder.scope with own } : Scope).Upholds holds) :
    ∃ early stuck, IsOutcome holds module early stuck binder := by
  obtain ⟨found, _, rfl⟩ := eq_describe_of_ofModule made
  set scope : Scope := ⟨env.builtin ended, ⟨module.name, []⟩, found⟩
  obtain ⟨builtin, dependencies, named⟩ := (Describes.of_describe { scope } module.types).frame
  have midway : IsMidway holds module.types module.types { scope } := by
    refine ⟨?_, nofun, nofun, List.Subset.refl _, distinguishes.names, ?_, fun _ => .inl⟩
    · intro own
      have upheld := upholds own
      dsimp only at upheld ⊢
      rwa [builtin, dependencies] at upheld
    · intro decl member
      have noBuiltin := distinguishes.builtin decl member
      have noDependency := distinguishes.dependencies decl member
      rw [builtin] at noBuiltin
      rw [dependencies] at noDependency
      dsimp only at noBuiltin noDependency ⊢
      rw [Scope.lookup, noBuiltin, List.findSome?_eq_none_iff.mpr noDependency]
      rfl
  obtain ⟨between, stuck, reached, uncovered, ends⟩ := midway.exists_stuck
  rw [ends] at named ⊢
  refine ⟨between.scope, stuck, .of_isMidway reached ?_ uncovered⟩
  rw [← (frame_declareBare between stuck).2.2, named]

end Binder

end Splice
