import Splice.Binding.Binder
import Splice.Proofs.Types.Splitting

/-!
# Resolution

A resolution is made of others, one after the other, and hands the cache on from each to the next. A
plain name is a leaf of what is resolved: it is kept as it is looked up, once, and only where an
expression mentions it.
-/

namespace Splice

variable {scope : Scope} {strict : Bool} {name key : String} {expr element : TypeExpr}
variable {exprs arguments : List TypeExpr} {before between after cache : Cache}
variable {mentioned : Prop} {depth : Nat}
variable {resolve : TypeExpr → Cache → Cached (Option Descriptor)}

namespace TypeExpr

/-- The expression has the plain name among the leaves of what it comes down to. -/
inductive Mentions (name : String) : TypeExpr → Prop where
  | plain {expr : TypeExpr} : expr.shape = .plain → expr.key = name → Mentions name expr
  | element {expr element : TypeExpr} {arguments : List TypeExpr} :
      expr.shape = .application element arguments → Mentions name element → Mentions name expr
  | argument {expr element argument : TypeExpr} {arguments : List TypeExpr} :
      expr.shape = .application element arguments → argument ∈ arguments →
      Mentions name argument → Mentions name expr
  | modified {expr : TypeExpr} {element modifier : String} :
      expr.shape = .modification element modifier → Mentions name (.named element) →
      Mentions name expr

/-- One of the expressions that an expression comes down to, or the expression itself. -/
inductive HasPart : TypeExpr → TypeExpr → Prop where
  | self (expr : TypeExpr) : HasPart expr expr
  | element {expr element part : TypeExpr} {arguments : List TypeExpr} :
      expr.shape = .application element arguments → HasPart element part → HasPart expr part
  | argument {expr element argument part : TypeExpr} {arguments : List TypeExpr} :
      expr.shape = .application element arguments → argument ∈ arguments →
      HasPart argument part → HasPart expr part
  | modified {expr part : TypeExpr} {element modifier : String} :
      expr.shape = .modification element modifier → HasPart (.named element) part →
      HasPart expr part

/-- Where the expression comes down to something that goes by the name, that has no parts. -/
def IsBare (name : String) (expr : TypeExpr) : Prop :=
  ∀ part, expr.HasPart part → part.key = name → part.shape = .plain

theorem mem_key_applied : '[' ∈ (applied element arguments).key.toList := by
  simp [key, text, TypeName.toRuntime, TypeName.runtimeChar]

theorem shapeOfName_of_isPlain (plain : TypeName.IsPlain name) : shapeOfName name = .plain := by
  obtain ⟨unbracketed, unmodified⟩ := plain
  rw [shapeOfName, unmodified,
    TypeName.read_of_leaf unmodified (TypeName.splitApplication_eq_none unbracketed)]

/-- An expression whose key is plain is that bare name. -/
theorem shape_of_isPlain (plain : TypeName.IsPlain expr.key) : expr.shape = .plain := by
  cases expr with
  | named name => exact shapeOfName_of_isPlain plain
  | applied element arguments => exact absurd mem_key_applied plain.1

theorem isBare_of_isPlain (plain : TypeName.IsPlain name) (expr : TypeExpr) :
    expr.IsBare name :=
  fun _ _ same => shape_of_isPlain (same ▸ plain)

theorem mentions_iff_of_isPlain (plain : TypeName.IsPlain expr.key) :
    expr.Mentions name ↔ expr.key = name := by
  have shape := shape_of_isPlain plain
  constructor
  · intro mentions
    cases mentions with
    | plain _ named => exact named
    | element applied | argument applied => rw [shape] at applied; cases applied
    | modified modified => rw [shape] at modified; cases modified
  · exact .plain shape

theorem mentions_iff_of_application (shape : expr.shape = .application element arguments) :
    expr.Mentions name ↔
      element.Mentions name ∨ ∃ argument ∈ arguments, argument.Mentions name := by
  constructor
  · intro mentions
    cases mentions with
    | plain bare _ => rw [shape] at bare; cases bare
    | element applied mentioned =>
        rw [shape] at applied
        cases applied
        exact .inl mentioned
    | argument applied member mentioned =>
        rw [shape] at applied
        cases applied
        exact .inr ⟨_, member, mentioned⟩
    | modified modified => rw [shape] at modified; cases modified
  · rintro (mentioned | ⟨argument, member, mentioned⟩)
    · exact .element shape mentioned
    · exact .argument shape member mentioned

end TypeExpr

theorem Cache.lookup_cons (cache : Cache) (key name : String) (type : Descriptor) :
    ((key, type) :: cache).lookup name = if name = key then some type else cache.lookup name := by
  rw [List.lookup_cons]
  split_ifs with same
  · simp [same]
  · simp [beq_false_of_ne same]

namespace Scope

/-! ## One resolution after another -/

/-- Go on with what was found. A miss and an error stay what they are. -/
def andThen {α β : Type} (result : Cached (Option α))
    (next : α → Cache → Cached (Option β)) : Cached (Option β) :=
  match result with
  | (.error error, cache) => (.error error, cache)
  | (.ok none, cache) => (.ok none, cache)
  | (.ok (some value), cache) => next value cache

theorem resolveEach_cons (expr : TypeExpr) (rest : List TypeExpr) (cache : Cache) :
    resolveEach resolve (expr :: rest) cache =
      andThen (resolve expr cache) fun type cache =>
        andThen (resolveEach resolve rest cache) fun types cache =>
          (.ok (some (type :: types)), cache) := by
  rw [resolveEach]
  obtain ⟨error | _ | type, between⟩ := resolve expr cache
  · rfl
  · rfl
  · dsimp only [andThen]
    obtain ⟨error | _ | types, after⟩ := resolveEach resolve rest between <;> rfl

theorem resolveApplication_eq (element : TypeExpr) (arguments : List TypeExpr) (cache : Cache) :
    resolveApplication resolve element arguments cache =
      andThen (resolve element cache) fun definition cache =>
        andThen (resolveEach resolve arguments cache) fun types cache =>
          ((definition.close types).map some, cache) := by
  rw [resolveApplication]
  obtain ⟨error | _ | definition, between⟩ := resolve element cache
  · rfl
  · rfl
  · dsimp only [andThen]
    obtain ⟨error | _ | types, after⟩ := resolveEach resolve arguments between <;> rfl

theorem resolveModification_eq (element modifier : String) (cache : Cache) :
    scope.resolveModification resolve element modifier cache =
      andThen (resolve (.named element) cache) fun type cache =>
        (.ok (some (.modified type modifier
          (if modifier.startsWith "[" then scope.lookup arrayName else none))), cache) := by
  rw [resolveModification]
  obtain ⟨error | _ | type, between⟩ := resolve (.named element) cache <;> rfl

/-- Resolve what an expression comes down to, whether or not the cache knows the expression. -/
def resolveParts (scope : Scope) (resolve : TypeExpr → Cache → Cached (Option Descriptor))
    (expr : TypeExpr) (cache : Cache) : Cached (Option Descriptor) :=
  match expr.shape with
  | .application element arguments => resolveApplication resolve element arguments cache
  | .modification element modifier => scope.resolveModification resolve element modifier cache
  | .plain => (.ok (scope.lookup expr.key), cache)

theorem resolveParts_applied :
    scope.resolveParts resolve (.applied element arguments) cache =
      resolveApplication resolve element arguments cache := rfl

theorem resolveWithin_of_known {type : Descriptor} (known : cache.lookup expr.key = some type) :
    scope.resolveWithin strict (depth + 1) expr cache = (.ok (some type), cache) := by
  rw [resolveWithin, known]

theorem resolveWithin_of_unknown (unknown : cache.lookup expr.key = none) :
    scope.resolveWithin strict (depth + 1) expr cache =
      keep strict expr.key (scope.resolveParts (scope.resolveWithin strict depth) expr cache) := by
  rw [resolveWithin, unknown]
  rfl

/-! ## What the cache learns -/

/-- The cache says about the name what it did before, or it has learned it from the scope. -/
def Learns (scope : Scope) (name : String) (mentioned : Prop) (before after : Cache) : Prop :=
  after.lookup name = before.lookup name ∨
    mentioned ∧ before.lookup name = none ∧ after.lookup name = scope.lookup name

namespace Learns

theorem refl (scope : Scope) (name : String) (mentioned : Prop) (cache : Cache) :
    scope.Learns name mentioned cache cache := .inl rfl

theorem trans (first : scope.Learns name mentioned before between)
    (second : scope.Learns name mentioned between after) :
    scope.Learns name mentioned before after := by
  rcases first with same | ⟨mention, unknown, learned⟩
  · rw [Learns, ← same]
    exact second
  · rcases second with same | ⟨_, _, learned⟩
    · exact .inr ⟨mention, unknown, same.trans learned⟩
    · exact .inr ⟨mention, unknown, learned⟩

theorem imp {other : Prop} (learns : scope.Learns name mentioned before after)
    (implies : mentioned → other) : scope.Learns name other before after :=
  learns.imp_right fun ⟨mention, rest⟩ => ⟨implies mention, rest⟩

theorem andThen {α β : Type} {result : Cached (Option α)} {next : α → Cache → Cached (Option β)}
    (first : scope.Learns name mentioned before result.2)
    (second : ∀ value cache, scope.Learns name mentioned cache (next value cache).2) :
    scope.Learns name mentioned before (Scope.andThen result next).2 := by
  obtain ⟨error | _ | value, between⟩ := result
  · exact first
  · exact first
  · exact first.trans (second value between)

/-- What is kept under another key is of no concern. -/
theorem keep {result : Cached (Option Descriptor)} (other : key ≠ name)
    (learns : scope.Learns name mentioned before result.2) :
    scope.Learns name mentioned before (Scope.keep strict key result).2 := by
  obtain ⟨answer | _ | descriptor, cache⟩ := result
  · exact learns
  · cases strict <;> exact learns
  · rw [Scope.keep]
    split
    · exact learns
    · rw [Learns, Cache.lookup_cons, if_neg other.symm]
      exact learns

end Learns

theorem learns_resolveEach
    (learns : ∀ expr ∈ exprs, ∀ cache, scope.Learns name mentioned cache (resolve expr cache).2)
    (cache : Cache) : scope.Learns name mentioned cache (resolveEach resolve exprs cache).2 := by
  induction exprs generalizing cache with
  | nil => exact .refl ..
  | cons expr rest ih =>
      have others := ih fun expr member => learns expr (List.mem_cons_of_mem _ member)
      rw [resolveEach_cons]
      apply (learns expr List.mem_cons_self cache).andThen
      intro type between
      apply (others between).andThen
      intro types after
      exact .refl ..

/-- What an expression comes down to teaches the cache a plain name only if that mentions it. -/
theorem learns_resolveParts (bare : expr.IsBare name)
    (learns : ∀ expr : TypeExpr, expr.IsBare name → ∀ cache : Cache,
      scope.Learns name (expr.Mentions name) cache (resolve expr cache).2) (cache : Cache) :
    scope.Learns name (expr.Mentions name) cache (scope.resolveParts resolve expr cache).2 := by
  rw [resolveParts]
  split
  next element arguments shape =>
    have bareElement : element.IsBare name := fun part has => bare part (.element shape has)
    rw [resolveApplication_eq]
    apply ((learns element bareElement cache).imp (.element shape)).andThen
    intro definition between
    have others : scope.Learns name (expr.Mentions name) between
        (resolveEach resolve arguments between).2 := by
      apply learns_resolveEach
      intro argument member cache
      have bareArgument : argument.IsBare name :=
        fun part has => bare part (.argument shape member has)
      exact (learns argument bareArgument cache).imp fun mentions =>
        .argument shape member mentions
    apply others.andThen
    intro types after
    exact .refl ..
  next element modifier shape =>
    have bareElement : (TypeExpr.named element).IsBare name :=
      fun part has => bare part (.modified shape has)
    rw [resolveModification_eq]
    apply ((learns (.named element) bareElement cache).imp (.modified shape)).andThen
    intro type between
    exact .refl ..
  next => exact .refl ..

theorem keep_of_lookup_eq_none (unknown : cache.lookup key = none) (found : Option Descriptor) :
    keep strict key (.ok found, cache) =
      match found with
      | some descriptor => (.ok (some descriptor), (key, descriptor) :: cache)
      | none => if strict then (.error (.unknownType key), cache) else (.ok none, cache) := by
  cases found with
  | none => rfl
  | some descriptor => rw [keep, unknown]

theorem resolveParts_plain (shape : expr.shape = .plain) :
    scope.resolveParts resolve expr cache = (.ok (scope.lookup expr.key), cache) := by
  rw [resolveParts, shape]

/-- A resolution teaches the cache a plain name only if the expression mentions it. -/
theorem learns_resolveWithin (bare : expr.IsBare name) (depth : Nat) (cache : Cache) :
    scope.Learns name (expr.Mentions name) cache
      (scope.resolveWithin strict depth expr cache).2 := by
  induction depth generalizing expr cache with
  | zero => exact .refl ..
  | succ depth ih =>
      cases known : cache.lookup expr.key with
      | some type =>
          rw [resolveWithin_of_known known]
          exact .refl ..
      | none =>
          rw [resolveWithin_of_unknown known]
          by_cases same : expr.key = name
          · subst same
            have shape := bare expr (.self expr) rfl
            rw [resolveParts_plain shape, keep_of_lookup_eq_none known]
            refine .inr ⟨.plain shape rfl, known, ?_⟩
            cases found : scope.lookup expr.key with
            | none => cases strict <;> exact known
            | some descriptor => exact List.lookup_cons_self
          · exact (learns_resolveParts bare (fun _ bare => ih bare) cache).keep same

/-- The answer for a name that is looked up. -/
def answer (strict : Bool) (name : String) : Option Descriptor → Except Error (Option Descriptor)
  | some descriptor => .ok (some descriptor)
  | none => if strict then .error (.unknownType name) else .ok none

/-- An expression without parts is answered as the cache has it, or else as the scope does. -/
theorem fst_resolveWithin_of_plain (plain : expr.shape = .plain) (depth : Nat) (cache : Cache) :
    (scope.resolveWithin strict (depth + 1) expr cache).1 =
      answer strict expr.key ((cache.lookup expr.key).or (scope.lookup expr.key)) := by
  cases known : cache.lookup expr.key with
  | some type =>
      rw [resolveWithin_of_known known]
      rfl
  | none =>
      rw [resolveWithin_of_unknown known, resolveParts_plain plain, keep_of_lookup_eq_none known]
      cases scope.lookup expr.key with
      | none => cases strict <;> rfl
      | some descriptor => rfl

theorem fst_resolveWithin_of_isPlain (plain : TypeName.IsPlain expr.key) (depth : Nat)
    (cache : Cache) :
    (scope.resolveWithin strict (depth + 1) expr cache).1 =
      answer strict expr.key ((cache.lookup expr.key).or (scope.lookup expr.key)) :=
  fst_resolveWithin_of_plain (TypeExpr.shape_of_isPlain plain) depth cache

theorem resolve_plain (plain : TypeName.IsPlain expr.key) (cache : Cache) :
    (scope.resolve strict expr cache).1 =
      answer strict expr.key ((cache.lookup expr.key).or (scope.lookup expr.key)) :=
  fst_resolveWithin_of_isPlain plain 99 cache

end Scope

namespace Binder

/-- Resolve expressions one after the other, each strictly or leniently. -/
def resolveAll (binder : Binder) : List (Bool × TypeExpr) → Binder
  | [] => binder
  | (strict, expr) :: rest => (binder.resolve strict expr).2.resolveAll rest

@[simp] theorem scope_resolve (binder : Binder) (strict : Bool) (expr : TypeExpr) :
    (binder.resolve strict expr).2.scope = binder.scope := rfl

@[simp] theorem scope_resolveAll (binder : Binder) (calls : List (Bool × TypeExpr)) :
    (binder.resolveAll calls).scope = binder.scope := by
  induction calls generalizing binder with
  | nil => rfl
  | cons call rest ih => exact ih (binder.resolve call.1 call.2).2

end Binder

end Splice
