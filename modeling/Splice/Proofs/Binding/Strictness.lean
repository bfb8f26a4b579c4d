import Splice.Proofs.Binding.Caching

/-!
# Strict resolutions

A strict resolution takes the same steps as a lenient one up to the first name that is missing. There
the lenient one answers with nothing, and the strict one with an error that says which name it is.
-/

namespace Splice

variable {scope : Scope} {first cache before : Cache} {name key : String} {expr part : TypeExpr}
variable {exprs : List TypeExpr} {missing other : String → Prop} {depth : Nat} {α β : Type}
variable {lenient strict : TypeExpr → Cache → Cached (Option Descriptor)}

theorem TypeExpr.HasPart.trans {last : TypeExpr} (has : expr.HasPart part)
    (hasLast : part.HasPart last) : expr.HasPart last := by
  induction has with
  | self => exact hasLast
  | element shape _ ih => exact .element shape (ih hasLast)
  | argument shape member _ ih => exact .argument shape member (ih hasLast)
  | modified shape _ ih => exact .modified shape (ih hasLast)

namespace Scope

open Cache (Within)

/-- The expression comes down to the name, among others, and neither the cache nor the scope has
it. -/
def LacksPart (scope : Scope) (cache : Cache) (expr : TypeExpr) (name : String) : Prop :=
  ∃ part, expr.HasPart part ∧ part.shape = .plain ∧ part.key = name ∧
    cache.lookup name = none ∧ scope.lookup name = none

theorem LacksPart.of_part (has : expr.HasPart part) (lacks : scope.LacksPart cache part name) :
    scope.LacksPart cache expr name := by
  obtain ⟨missed, hasMissed, rest⟩ := lacks
  exact ⟨missed, has.trans hasMissed, rest⟩

/-- The second answer is the first one, or an error that names something missing where the first one
is a miss. The caches are the same, and have lost nothing where something is found. -/
inductive Sharpens (first : Cache) (missing : String → Prop) :
    Cached (Option α) → Cached (Option α) → Prop where
  | found {cache : Cache} (value : α) : Within first cache →
      Sharpens first missing (.ok (some value), cache) (.ok (some value), cache)
  | failed (error : Error) (cache : Cache) :
      Sharpens first missing (.error error, cache) (.error error, cache)
  | missed {name : String} (cache : Cache) : missing name →
      Sharpens first missing (.ok none, cache) (.error (.unknownType name), cache)

namespace Sharpens

theorem imp {answer sharper : Cached (Option α)} (sharpens : Sharpens first missing answer sharper)
    (implies : ∀ name, missing name → other name) : Sharpens first other answer sharper := by
  cases sharpens with
  | found value within => exact .found value within
  | failed error cache => exact .failed error cache
  | missed cache lacks => exact .missed cache (implies _ lacks)

theorem andThen {answer sharper : Cached (Option α)}
    {next following : α → Cache → Cached (Option β)}
    (sharpens : Sharpens first missing answer sharper)
    (goesOn : ∀ value cache, Within first cache →
      Sharpens first missing (next value cache) (following value cache)) :
    Sharpens first missing (Scope.andThen answer next) (Scope.andThen sharper following) := by
  cases sharpens with
  | found value within => exact goesOn value _ within
  | failed error cache => exact .failed error cache
  | missed cache lacks => exact .missed cache lacks

theorem keep {answer sharper : Cached (Option Descriptor)}
    (sharpens : Sharpens first missing answer sharper) (key : String) :
    Sharpens first missing (Scope.keep false key answer) (Scope.keep true key sharper) := by
  cases sharpens with
  | @found cache type within =>
      rw [Scope.keep, Scope.keep]
      cases known : cache.lookup key with
      | some earlier => exact .found earlier within
      | none => exact .found type (within.trans (.cons_right known type))
  | failed error cache => exact .failed error cache
  | missed cache lacks => exact .missed cache lacks

end Sharpens

/-- Whatever the cache has learned, the strict resolution of the expression sharpens the lenient
one. -/
def IsSharpened (first : Cache) (missing : String → Prop)
    (lenient strict : TypeExpr → Cache → Cached (Option Descriptor)) (expr : TypeExpr) : Prop :=
  ∀ cache, Within first cache →
    Sharpens first missing (lenient expr cache) (strict expr cache)

theorem sharpens_resolveEach
    (sharpened : ∀ expr ∈ exprs, IsSharpened first missing lenient strict expr)
    (within : Within first before) :
    Sharpens first missing (resolveEach lenient exprs before) (resolveEach strict exprs before) := by
  induction exprs generalizing before with
  | nil => exact .found [] within
  | cons expr rest ih =>
      have others := fun {before} => @ih before fun expr member =>
        sharpened expr (List.mem_cons_of_mem _ member)
      rw [resolveEach_cons, resolveEach_cons]
      apply (sharpened expr List.mem_cons_self before within).andThen
      intro type between within
      apply (others within).andThen
      intro types after within
      exact .found (type :: types) within

/-- An expression that comes down to others is sharpened if they are. -/
theorem sharpens_resolveParts (composed : expr.shape ≠ .plain)
    (sharpened : ∀ part, expr.HasPart part → IsSharpened first missing lenient strict part)
    (within : Within first before) :
    Sharpens first missing (scope.resolveParts lenient expr before)
      (scope.resolveParts strict expr before) := by
  rw [resolveParts, resolveParts]
  split
  next element arguments shape =>
    rw [resolveApplication_eq, resolveApplication_eq]
    apply (sharpened element (.element shape (.self element)) before within).andThen
    intro definition between within
    have others := sharpens_resolveEach
      (fun argument member => sharpened argument (.argument shape member (.self argument))) within
    apply others.andThen
    intro types after within
    cases definition.close types with
    | error error => exact .failed error after
    | ok type => exact .found type within
  next element modifier shape =>
    rw [resolveModification_eq, resolveModification_eq]
    apply (sharpened (.named element) (.modified shape (.self (.named element))) before
      within).andThen
    intro type between within
    exact .found _ within
  next shape => exact absurd shape composed

/-- A strict resolution differs from a lenient one only in that it names a missing part. -/
theorem isSharpened_resolveWithin (depth : Nat) (expr : TypeExpr) :
    IsSharpened first (scope.LacksPart first expr) (scope.resolveWithin false depth)
      (scope.resolveWithin true depth) expr := by
  induction depth generalizing expr with
  | zero => exact fun cache _ => .failed _ cache
  | succ depth ih =>
      intro cache within
      cases known : cache.lookup expr.key with
      | some type =>
          rw [resolveWithin_of_known known, resolveWithin_of_known known]
          exact .found type within
      | none =>
          rw [resolveWithin_of_unknown known, resolveWithin_of_unknown known]
          by_cases plain : expr.shape = .plain
          · rw [resolveParts_plain plain, resolveParts_plain plain, keep_of_lookup_eq_none known,
              keep_of_lookup_eq_none known]
            cases found : scope.lookup expr.key with
            | some type => exact .found type (within.trans (.cons_right known type))
            | none =>
                have unknown : first.lookup expr.key = none := by
                  by_contra knownFirst
                  obtain ⟨type, knownFirst⟩ := Option.ne_none_iff_exists'.mp knownFirst
                  rw [within _ _ knownFirst] at known
                  cases known
                exact .missed cache ⟨expr, .self expr, plain, rfl, unknown, found⟩
          · have parts : Sharpens first (scope.LacksPart first expr)
                (scope.resolveParts (scope.resolveWithin false depth) expr cache)
                (scope.resolveParts (scope.resolveWithin true depth) expr cache) := by
              apply sharpens_resolveParts plain _ within
              intro part has between withinBetween
              exact (ih part between withinBetween).imp fun _ lacks => lacks.of_part has
            exact parts.keep expr.key

end Scope

namespace Binder

/-- Whether a resolution is strict decides only how it reports a miss: with an error that names
something in the expression that does not resolve. All else it answers as a lenient one does, and it
leaves the same state. -/
theorem resolve_true_iff_resolve_false (binder : Binder) (expr : TypeExpr) :
    (binder.resolve true expr).1 ≠ .ok none ∧
      (∀ type, (binder.resolve true expr).1 = .ok (some type) ↔
        (binder.resolve false expr).1 = .ok (some type)) ∧
      ((binder.resolve false expr).1 = .ok none → ∃ part, expr.HasPart part ∧
        (binder.resolve false part).1 = .ok none ∧
        (binder.resolve true expr).1 = .error (.unknownType part.key)) ∧
      (∀ error, (binder.resolve false expr).1 = .error error →
        (binder.resolve true expr).1 = .error error) ∧
      (binder.resolve true expr).2 = (binder.resolve false expr).2 := by
  have sharpens : Scope.Sharpens binder.cache (binder.scope.LacksPart binder.cache expr)
      (binder.scope.resolve false expr binder.cache)
      (binder.scope.resolve true expr binder.cache) :=
    Scope.isSharpened_resolveWithin Scope.depthLimit expr binder.cache (.refl binder.cache)
  rw [resolve, resolve]
  generalize binder.scope.resolve false expr binder.cache = answer at sharpens ⊢
  generalize binder.scope.resolve true expr binder.cache = sharper at sharpens ⊢
  cases sharpens with
  | found type => simp
  | failed error => simp
  | missed cache lacks =>
      obtain ⟨part, has, plain, rfl, unknown, nowhere⟩ := lacks
      have missed : (binder.resolve false part).1 = _ :=
        Scope.fst_resolveWithin_of_plain plain 99 binder.cache
      rw [unknown, nowhere] at missed
      refine ⟨by simp, by simp, ?_, by simp, rfl⟩
      intro _
      exact ⟨part, has, missed, rfl⟩

end Binder

end Splice
