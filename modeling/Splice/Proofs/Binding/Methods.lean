import Mathlib.Data.List.Pairwise
import Splice.Proofs.Binding.Hierarchy

/-!
# Resolving methods

A method resolves to the member that its type's descriptor has for it, if the types of its
parameters resolve one after the other, and not at all otherwise. The type of the method is resolved
first. As its name is plain, that tells the cache nothing that the scope would not have answered
anyway.
-/

namespace Splice

variable {scope : Scope} {strict : Bool} {depth : Nat} {name : String} {type : Descriptor}
variable {expr : TypeExpr} {exprs : List TypeExpr} {left right cache : Cache} {α β : Type}
variable {binder other : Binder} {names : List String} {decl : TypeDecl} {method : Method}

namespace Scope

/-! ## Plain names in a cache -/

/-- Under plain names both caches have only what the scope finds. They differ in nothing else. -/
structure Alike (scope : Scope) (left right : Cache) : Prop where
  leftFinds : left.Holds scope.Finds
  rightFinds : right.Holds scope.Finds
  same : ∀ name, ¬ TypeName.IsPlain name → left.lookup name = right.lookup name

/-- The answers are the same, beside caches that are alike. -/
structure Agree (scope : Scope) (left right : Cached α) : Prop where
  answer : left.1 = right.1
  alike : scope.Alike left.2 right.2

/-- A plain name is answered as the scope finds it. -/
theorem resolveWithin_of_finds (plain : TypeName.IsPlain expr.key)
    (held : cache.Holds scope.Finds) (strict : Bool) (depth : Nat) :
    (scope.resolveWithin strict (depth + 1) expr cache).1 =
      answer strict expr.key (scope.lookup expr.key) := by
  rw [fst_resolveWithin_of_isPlain plain]
  cases known : cache.lookup expr.key with
  | none => rfl
  | some type => rw [held expr.key type known plain, Option.some_or]

/-- A plain name teaches the cache nothing else. -/
theorem lookup_resolveWithin_of_isPlain (plain : TypeName.IsPlain expr.key)
    (other : name ≠ expr.key) (strict : Bool) (depth : Nat) :
    (scope.resolveWithin strict depth expr cache).2.lookup name = cache.lookup name := by
  cases depth with
  | zero => rfl
  | succ depth =>
      cases known : cache.lookup expr.key with
      | some type => rw [resolveWithin_of_known known]
      | none =>
          rw [resolveWithin_of_unknown known, resolveParts_plain (TypeExpr.shape_of_isPlain plain),
            keep_of_lookup_eq_none known]
          cases scope.lookup expr.key with
          | none => cases strict <;> rfl
          | some descriptor => rw [Cache.lookup_cons, if_neg other]

theorem holds_resolveWithin (held : cache.Holds scope.Finds) (strict : Bool) (depth : Nat)
    (expr : TypeExpr) : (scope.resolveWithin strict depth expr cache).2.Holds scope.Finds :=
  (keeps_resolveWithin (upholds_finds scope) strict depth expr held).holds

/-- Resolving a plain name leaves a cache that is like the one before. -/
theorem alike_resolveWithin (held : cache.Holds scope.Finds) (plain : TypeName.IsPlain expr.key)
    (strict : Bool) (depth : Nat) :
    scope.Alike (scope.resolveWithin strict depth expr cache).2 cache where
  leftFinds := holds_resolveWithin held strict depth expr
  rightFinds := held
  same name unplain := by
    apply lookup_resolveWithin_of_isPlain plain
    rintro rfl
    exact unplain plain

namespace Agree

theorem andThen {first second : Cached (Option α)} {next following : α → Cache → Cached (Option β)}
    (agree : scope.Agree first second)
    (goesOn : ∀ value left right, scope.Alike left right →
      scope.Agree (next value left) (following value right)) :
    scope.Agree (Scope.andThen first next) (Scope.andThen second following) := by
  obtain ⟨answer, left⟩ := first
  obtain ⟨answer', right⟩ := second
  obtain ⟨same, alike⟩ := agree
  cases same
  rcases answer with error | _ | value
  · exact ⟨rfl, alike⟩
  · exact ⟨rfl, alike⟩
  · exact goesOn value left right alike

theorem keep {first second : Cached (Option Descriptor)} (agree : scope.Agree first second)
    (unplain : ¬ TypeName.IsPlain name) (strict : Bool) :
    scope.Agree (Scope.keep strict name first) (Scope.keep strict name second) := by
  obtain ⟨answer, left⟩ := first
  obtain ⟨answer', right⟩ := second
  obtain ⟨same, alike⟩ := agree
  cases same
  rcases answer with error | _ | type
  · exact ⟨rfl, alike⟩
  · cases strict <;> exact ⟨rfl, alike⟩
  · rw [Scope.keep, Scope.keep]
    dsimp only at alike ⊢
    rw [← alike.same name unplain]
    cases left.lookup name with
    | some earlier => exact ⟨rfl, alike⟩
    | none =>
        refine ⟨rfl, ?_, ?_, ?_⟩
        · exact alike.leftFinds.cons fun plain => absurd plain unplain
        · exact alike.rightFinds.cons fun plain => absurd plain unplain
        · intro other otherUnplain
          rw [Cache.lookup_cons, Cache.lookup_cons, alike.same other otherUnplain]

end Agree

variable {resolve : TypeExpr → Cache → Cached (Option Descriptor)}

theorem agree_resolveEach
    (agree : ∀ (expr : TypeExpr) (left right : Cache), scope.Alike left right →
      scope.Agree (resolve expr left) (resolve expr right)) (alike : scope.Alike left right) :
    scope.Agree (resolveEach resolve exprs left) (resolveEach resolve exprs right) := by
  induction exprs generalizing left right with
  | nil => exact ⟨rfl, alike⟩
  | cons expr rest ih =>
      rw [resolveEach_cons, resolveEach_cons]
      apply (agree expr left right alike).andThen
      intro type left right alike
      apply (ih alike).andThen
      intro types left right alike
      exact ⟨rfl, alike⟩

theorem agree_resolveParts
    (agree : ∀ (expr : TypeExpr) (left right : Cache), scope.Alike left right →
      scope.Agree (resolve expr left) (resolve expr right)) (alike : scope.Alike left right) :
    scope.Agree (scope.resolveParts resolve expr left) (scope.resolveParts resolve expr right) := by
  rw [resolveParts, resolveParts]
  cases expr.shape with
  | application element arguments =>
      dsimp only
      rw [resolveApplication_eq, resolveApplication_eq]
      apply (agree element left right alike).andThen
      intro definition left right alike
      apply (agree_resolveEach agree alike).andThen
      intro types left right alike
      exact ⟨rfl, alike⟩
  | modification element modifier =>
      dsimp only
      rw [resolveModification_eq, resolveModification_eq]
      apply (agree (.named element) left right alike).andThen
      intro type left right alike
      exact ⟨rfl, alike⟩
  | plain => exact ⟨rfl, alike⟩

/-- Caches that are alike give the same answers. -/
theorem agree_resolveWithin (alike : scope.Alike left right) (strict : Bool) (depth : Nat)
    (expr : TypeExpr) : scope.Agree (scope.resolveWithin strict depth expr left)
      (scope.resolveWithin strict depth expr right) := by
  induction depth generalizing expr left right with
  | zero => exact ⟨rfl, alike⟩
  | succ depth ih =>
      by_cases plain : TypeName.IsPlain expr.key
      · refine ⟨?_, holds_resolveWithin alike.leftFinds strict (depth + 1) expr,
          holds_resolveWithin alike.rightFinds strict (depth + 1) expr, ?_⟩
        · rw [resolveWithin_of_finds plain alike.leftFinds,
            resolveWithin_of_finds plain alike.rightFinds]
        · intro name unplain
          have other : name ≠ expr.key := by
            rintro rfl
            exact unplain plain
          rw [lookup_resolveWithin_of_isPlain plain other,
            lookup_resolveWithin_of_isPlain plain other, alike.same name unplain]
      · have same := alike.same expr.key plain
        cases known : right.lookup expr.key with
        | some type =>
            rw [known] at same
            rw [resolveWithin_of_known same, resolveWithin_of_known known]
            exact ⟨rfl, alike⟩
        | none =>
            rw [known] at same
            rw [resolveWithin_of_unknown same, resolveWithin_of_unknown known]
            have parts : scope.Agree
                (scope.resolveParts (scope.resolveWithin strict depth) expr left) _ :=
              agree_resolveParts (fun expr _ _ alike => ih alike expr) alike
            exact parts.keep plain strict

end Scope

namespace Binder

/-! ## Names of parameter types -/

theorem fst_require (binder : Binder) (expr : TypeExpr) :
    (binder.require expr).1 = match (binder.resolve true expr).1 with
      | .ok (some type) => .ok type
      | .ok none => .error (.unknownType expr.key)
      | .error error => .error error := by
  rw [require]
  obtain ⟨error | _ | type, after⟩ := binder.resolve true expr <;> rfl

theorem fst_requireNames_cons (binder : Binder) (expr : TypeExpr) (exprs : List TypeExpr) :
    (binder.requireNames (expr :: exprs)).1 = match (binder.require expr).1 with
      | .ok type =>
        ((binder.resolve true expr).2.requireNames exprs).1.map fun names => type.fullName :: names
      | .error error => .error error := by
  rw [requireNames, ← snd_require]
  obtain ⟨error | type, after⟩ := binder.require expr
  · rfl
  · dsimp only
    obtain ⟨error | names, last⟩ := after.requireNames exprs <;> rfl

/-- The names are the same from caches that are alike. -/
theorem requireNames_eq_of_alike (same : binder.scope = other.scope)
    (alike : binder.scope.Alike binder.cache other.cache) (exprs : List TypeExpr) :
    (binder.requireNames exprs).1 = (other.requireNames exprs).1 := by
  induction exprs generalizing binder other with
  | nil => rfl
  | cons expr rest ih =>
      have agree := Scope.agree_resolveWithin alike true Scope.depthLimit expr
      have answers : (binder.resolve true expr).1 = (other.resolve true expr).1 := by
        rw [resolve, resolve, ← same]
        exact agree.answer
      have others : ((binder.resolve true expr).2.requireNames rest).1 =
          ((other.resolve true expr).2.requireNames rest).1 := by
        have sameAfter : (binder.resolve true expr).2.scope = (other.resolve true expr).2.scope :=
          same
        apply ih sameAfter
        rw [resolve, resolve, ← same]
        exact agree.alike
      rw [fst_requireNames_cons, fst_requireNames_cons, fst_require, fst_require, answers, others]

/-- What each way to make a type upholds holds of the types that are required. -/
theorem forall₂_of_requireNames {holds : String → Descriptor → Prop}
    (upholds : binder.scope.Upholds holds) (held : binder.cache.Holds holds)
    (required : (binder.requireNames exprs).1 = .ok names) :
    ∃ types : List Descriptor, names = types.map (·.fullName) ∧
      List.Forall₂ (fun (expr : TypeExpr) type => holds expr.key type) exprs types := by
  induction exprs generalizing binder names with
  | nil =>
      cases required
      exact ⟨[], rfl, .nil⟩
  | cons expr rest ih =>
      have keeps := keeps_resolve upholds held true expr
      rw [fst_requireNames_cons, fst_require] at required
      split at required
      next type resolved =>
        split at resolved
        next found answered =>
          cases resolved
          obtain ⟨later, requiredLater, rfl⟩ := map_eq_ok_iff.mp required
          have upholdsAfter : (binder.resolve true expr).2.scope.Upholds holds := upholds
          obtain ⟨types, rfl, others⟩ := ih upholdsAfter keeps.holds requiredLater
          exact ⟨type :: types, rfl, .cons (keeps.good type answered) others⟩
        · cases resolved
        · cases resolved
      · cases required

/-- Types are known by the names under which they are required, if these are good. -/
theorem eq_keys_of_requireNames {good : List Char → Prop}
    (upholds : binder.scope.Upholds (GoesByGood good))
    (held : binder.cache.Holds (GoesByGood good)) (each : ∀ expr ∈ exprs, good expr.key.toList)
    (required : (binder.requireNames exprs).1 = .ok names) : names = exprs.map (·.key) := by
  obtain ⟨types, rfl, goBy⟩ := forall₂_of_requireNames upholds held required
  exact fullNames_of_goesByGood goBy each

end Binder

/-! ## Members -/

namespace Method

variable {methods : List Method} {overridden : Method}

/-- The methods share their name, whether they are static, and the types of their parameters. -/
structure SameSignature (method other : Method) : Prop where
  name : method.name = other.name
  isStatic : method.isStatic = other.isStatic
  parameters : method.parameters.map (·.type.key) = other.parameters.map (·.type.key)

instance : DecidableRel SameSignature := fun method other =>
  decidable_of_iff (method.name = other.name ∧ method.isStatic = other.isStatic ∧
      method.parameters.map (·.type.key) = other.parameters.map (·.type.key))
    ⟨fun ⟨name, isStatic, parameters⟩ => ⟨name, isStatic, parameters⟩,
      fun ⟨name, isStatic, parameters⟩ => ⟨name, isStatic, parameters⟩⟩

namespace SameSignature

theorem symm (same : method.SameSignature overridden) : overridden.SameSignature method :=
  ⟨same.name.symm, same.isStatic.symm, same.parameters.symm⟩

theorem trans {last : Method} (first : method.SameSignature overridden)
    (second : overridden.SameSignature last) : method.SameSignature last :=
  ⟨first.name.trans second.name, first.isStatic.trans second.isStatic,
    first.parameters.trans second.parameters⟩

end SameSignature

/-- Whether a method is a constructor is a matter of its name. -/
theorem sameSignature_toMember :
    method.toMember.sameSignature overridden.toMember = true ↔
      method.SameSignature overridden := by
  simp only [Member.sameSignature, Bool.and_eq_true, beq_iff_eq]
  constructor
  · rintro ⟨⟨⟨name, _⟩, isStatic⟩, parameters⟩
    exact ⟨name, isStatic, parameters⟩
  · rintro ⟨name, isStatic, parameters⟩
    refine ⟨⟨⟨name, ?_⟩, isStatic⟩, parameters⟩
    rw [toMember, toMember, isConstructor, isConstructor, name]

/-- No two of the methods share a signature. -/
def AreDistinct (methods : List Method) : Prop :=
  methods.Pairwise fun method other => ¬ method.SameSignature other

instance : DecidablePred AreDistinct := fun methods =>
  inferInstanceAs (Decidable (methods.Pairwise fun method other => ¬ method.SameSignature other))

theorem AreDistinct.eq (distinct : AreDistinct methods) (member : method ∈ methods)
    (otherMember : overridden ∈ methods) (same : method.SameSignature overridden) :
    method = overridden := by
  by_contra differ
  have symmetric : Std.Symm fun method other : Method => ¬ method.SameSignature other :=
    ⟨fun _ _ apart same => apart same.symm⟩
  exact distinct.forall member otherMember differ same

end Method

namespace Binder

/-- The member of a method of the type is the one made from it. -/
theorem memberOf?_eq (distinct : Method.AreDistinct decl.methods) (member : method ∈ decl.methods)
    (assembly : String) (base : Option Descriptor) :
    memberOf? (.declared (decl.header assembly) base) method
      (method.parameters.map (·.type.key)) = some method.toMember := by
  change (decl.methods.map Method.toMember).find? (·.sameSignature method.toMember) = _
  rw [List.find?_map]
  cases found : decl.methods.find? ((·.sameSignature method.toMember) ∘ Method.toMember) with
  | none =>
      have nothing := List.find?_eq_none.mp found method member
      exact absurd (Method.sameSignature_toMember.mpr ⟨rfl, rfl, rfl⟩) nothing
  | some other =>
      have accepted := List.find?_some found
      have same : other.SameSignature method := Method.sameSignature_toMember.mp accepted
      rw [distinct.eq (List.mem_of_find?_eq_some found) member same]
      rfl

/-- A method whose type resolves is matched by the names of its parameter types, which are required
after the type. -/
theorem fst_resolveMethod_of_resolve
    (resolved : (binder.resolve false decl.toExpr).1 = .ok (some type)) (method : Method) :
    (binder.resolveMethod method decl).1 =
      ((binder.resolve false decl.toExpr).2.requireNames
        (method.parameters.map (·.type))).1.map fun names =>
          (memberOf? type method names).map (type, ·) := by
  rw [resolveMethod]
  generalize binder.resolve false decl.toExpr = result at resolved ⊢
  obtain ⟨answer, after⟩ := result
  cases resolved
  dsimp only
  generalize after.requireNames (method.parameters.map (·.type)) = required
  obtain ⟨error | names, last⟩ := required <;> rfl

/-- A plain name that is resolved before them does not change the names of the parameter types. -/
theorem fst_resolveMethod (held : binder.cache.Holds binder.scope.Finds)
    (plain : TypeName.IsPlain decl.toExpr.key)
    (found : binder.scope.lookup decl.toExpr.key = some type) (method : Method) :
    (binder.resolveMethod method decl).1 =
      (binder.requireNames (method.parameters.map (·.type))).1.map fun names =>
        (memberOf? type method names).map (type, ·) := by
  have resolved : (binder.resolve false decl.toExpr).1 = .ok (some type) := by
    have answered := Scope.resolveWithin_of_finds plain held false 99
    rw [found] at answered
    exact answered
  have names : ((binder.resolve false decl.toExpr).2.requireNames
      (method.parameters.map (·.type))).1 =
        (binder.requireNames (method.parameters.map (·.type))).1 := by
    have sameScope : (binder.resolve false decl.toExpr).2.scope = binder.scope := rfl
    apply requireNames_eq_of_alike sameScope
    exact Scope.alike_resolveWithin held plain false Scope.depthLimit
  rw [fst_resolveMethod_of_resolve resolved, names]

/-! ## Methods of a hierarchy -/

variable {σ : Type} {env : Environment σ} {directories : List String} {module : Module}
variable {world ended : σ}

/-- In every state of the binder, the cache has under plain names what the scope finds, and types by
their own names. -/
theorem holds_of_ofModule (made : ofModule env directories module world = (.ok binder, ended))
    (truthful : binder.scope.IsTruthful) (distinguishes : binder.scope.Distinguishes module.types)
    (calls : List Call) :
    (binder.performAll calls).cache.Holds binder.scope.Finds ∧
      (binder.performAll calls).cache.Holds GoesBy := by
  have upheld (own : Assembly) : ({ binder.scope with own } : Scope).IsTruthful := truthful
  obtain ⟨early, stuck, outcome⟩ :=
    exists_isOutcome made distinguishes fun own => (upheld own).upholds
  exact ⟨(holds_performAll (Scope.upholds_finds _) outcome.finds calls).2,
    (holds_performAll truthful.upholds outcome.held calls).2⟩

/-- A method of a hierarchy is matched against the descriptor of its type. -/
theorem exists_resolveMethod (made : ofModule env directories module world = (.ok binder, ended))
    (truthful : binder.scope.IsTruthful) (hierarchy : module.IsHierarchy)
    (distinguishes : binder.scope.Distinguishes module.types)
    (distinct : Method.AreDistinct decl.methods) (member : decl ∈ module.types)
    (methodMember : method ∈ decl.methods) (calls : List Call) :
    ∃ type, binder.scope.own.get? decl.runtimeName = some type ∧
      memberOf? type method (method.parameters.map (·.type.key)) = some method.toMember ∧
      ((binder.performAll calls).resolveMethod method decl).1 =
        ((binder.performAll calls).requireNames (method.parameters.map (·.type))).1.map fun names =>
          (memberOf? type method names).map (type, ·) := by
  obtain ⟨base, described, _⟩ := exists_described made hierarchy distinguishes member
  have plain := hierarchy.plain decl member
  have finds := (holds_of_ofModule made truthful distinguishes calls).1
  rw [← scope_performAll binder calls] at finds
  refine ⟨_, described, memberOf?_eq distinct methodMember module.name base, ?_⟩
  apply fst_resolveMethod finds
  · rw [plain.key_toExpr]
    exact plain.isPlain_runtimeName
  · rw [scope_performAll, plain.key_toExpr, distinguishes.lookup_eq member, described]

end Binder

end Splice
