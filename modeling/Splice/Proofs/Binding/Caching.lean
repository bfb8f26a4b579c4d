import Mathlib.Data.List.Forall2
import Splice.Proofs.Binding.ReadBack
import Splice.Proofs.Binding.Resolution
import Splice.Proofs.Success

/-!
# Caching

The cache of a binder only saves work: resolutions made earlier do not change an answer. Every entry
that a resolution adds is explained by entries that were there before it, so two caches that have
grown from the same one agree wherever both know a name.

Two things limit this. An expression whose key comes down to something else than the expression does
is kept under a key that is not its own. And an answer from the cache does not count towards the
limit on nesting, so an expression that nests too deeply may be answered all the same once its parts
are known.
-/

namespace Splice

variable {scope : Scope} {strict : Bool} {first cache larger between before after : Cache}
variable {key name : String} {type other : Descriptor} {expr : TypeExpr} {exprs : List TypeExpr}
variable {element argument : TypeExpr} {definition : Descriptor} {depth count further : Nat}
variable {α β : Type} {resolve : TypeExpr → Cache → Cached (Option Descriptor)}

/-! ## Caches -/

/-- The cache has the types under the names. -/
def Cache.Knows (cache : Cache) : List String → List Descriptor → Prop :=
  List.Forall₂ fun name type => cache.lookup name = some type

/-- The caches say the same of whatever name both know. -/
def Cache.Agree (left right : Cache) : Prop :=
  ∀ key type other, left.lookup key = some type → right.lookup key = some other → type = other

theorem Cache.Agree.types_eq {keys : List String} {types others : List Descriptor}
    (agree : cache.Agree larger) (knows : cache.Knows keys types)
    (otherKnows : larger.Knows keys others) : types = others := by
  induction knows generalizing others with
  | nil =>
      cases otherKnows
      rfl
  | cons known _ ih =>
      cases otherKnows with
      | cons otherKnown rest => rw [agree _ _ _ known otherKnown, ih rest]

/-- All that one cache knows the other knows as well. -/
def Cache.Within (smaller larger : Cache) : Prop :=
  ∀ key type, smaller.lookup key = some type → larger.lookup key = some type

namespace Cache.Within

theorem refl (cache : Cache) : Within cache cache := fun _ _ known => known

theorem trans (left : Within before between) (right : Within between after) :
    Within before after := fun key type known => right key type (left key type known)

theorem cons_right (unknown : cache.lookup key = none) (type : Descriptor) :
    Within cache ((key, type) :: cache) := by
  intro name found known
  rw [Cache.lookup_cons]
  split_ifs with same
  · rw [same, unknown] at known
    cases known
  · exact known

theorem cons_left (within : Within cache larger) (known : larger.lookup key = some type) :
    Within ((key, type) :: cache) larger := by
  intro name found foundKnown
  rw [Cache.lookup_cons] at foundKnown
  split_ifs at foundKnown with same
  · rw [same, known]
    exact foundKnown
  · exact within name found foundKnown

end Cache.Within

namespace Scope

open Cache (Within)

/-- What the name stands for once the cache knows the parts that it comes down to. -/
def Explains (scope : Scope) (cache : Cache) (key : String) (type : Descriptor) : Prop :=
  match TypeExpr.shapeOfName key with
  | .plain => scope.lookup key = some type
  | .modification element modifier =>
    ∃ part, cache.lookup (TypeExpr.named element).key = some part ∧
      type = .modified part modifier
        (if modifier.startsWith "[" then scope.lookup arrayName else none)
  | .application element arguments =>
    ∃ definition types, cache.lookup element.key = some definition ∧
      cache.Knows (arguments.map (·.key)) types ∧ definition.close types = .ok type

/-- The cache has grown from the first one by names that it explains. -/
inductive Grown (scope : Scope) (first : Cache) : Cache → Prop where
  | start : Grown scope first first
  | keep {cache : Cache} {key : String} {type : Descriptor} : Grown scope first cache →
      cache.lookup key = none → scope.Explains cache key type →
      Grown scope first ((key, type) :: cache)

theorem Explains.mono (explains : scope.Explains cache key type) (within : Within cache larger) :
    scope.Explains larger key type := by
  rw [Explains] at explains ⊢
  split at explains
  next shape => exact explains
  next element modifier shape =>
    obtain ⟨part, known, same⟩ := explains
    exact ⟨part, within _ _ known, same⟩
  next element arguments shape =>
    obtain ⟨definition, types, known, knows, closes⟩ := explains
    exact ⟨definition, types, within _ _ known, knows.imp fun _ _ => within _ _, closes⟩

/-- Caches that agree about the parts of a name explain it alike. -/
theorem Explains.unique (agree : cache.Agree larger) (explains : scope.Explains cache key type)
    (explainsOther : scope.Explains larger key other) : type = other := by
  rw [Explains] at explains explainsOther
  split at explains
  next shape =>
    rw [shape] at explainsOther
    exact Option.some.inj (explains.symm.trans explainsOther)
  next element modifier shape =>
    rw [shape] at explainsOther
    obtain ⟨part, known, rfl⟩ := explains
    obtain ⟨otherPart, otherKnown, rfl⟩ := explainsOther
    rw [agree _ _ _ known otherKnown]
  next element arguments shape =>
    rw [shape] at explainsOther
    obtain ⟨definition, types, known, knows, closes⟩ := explains
    obtain ⟨otherDefinition, others, otherKnown, otherKnows, otherCloses⟩ := explainsOther
    rw [agree _ _ _ known otherKnown, agree.types_eq knows otherKnows, otherCloses] at closes
    exact (Except.ok.inj closes).symm

namespace Grown

theorem within (grown : scope.Grown first cache) : Within first cache := by
  induction grown with
  | start => exact .refl first
  | keep _ unknown _ ih => exact ih.trans (.cons_right unknown _)

theorem explains (grown : scope.Grown first cache) (known : cache.lookup key = some type) :
    first.lookup key = some type ∨ scope.Explains cache key type := by
  induction grown with
  | start => exact .inl known
  | @keep cache added addedType _ unknown explains ih =>
      have grows := Within.cons_right unknown addedType
      rw [Cache.lookup_cons] at known
      split_ifs at known with same
      · cases known
        rw [same]
        exact .inr (explains.mono grows)
      · exact (ih known).imp_right (·.mono grows)

/-- Two caches that have grown from the same one agree. -/
theorem agree (grown : scope.Grown first cache) (grownLarger : scope.Grown first larger) :
    cache.Agree larger := by
  induction grown with
  | start =>
      intro key type other known otherKnown
      exact Option.some.inj ((grownLarger.within _ _ known).symm.trans otherKnown)
  | @keep cache added addedType grown unknown explains ih =>
      intro key type other known otherKnown
      rw [Cache.lookup_cons] at known
      split_ifs at known with same
      · cases known
        subst same
        rcases grownLarger.explains otherKnown with fromFirst | explainsOther
        · rw [grown.within _ _ fromFirst] at unknown
          cases unknown
        · exact explains.unique ih explainsOther
      · exact ih _ _ _ known otherKnown

end Grown

/-! ## What a resolution adds -/

/-- The cache has grown from the first one, through the one before, and the value holds in it. -/
structure Grows (scope : Scope) (first before : Cache) (holds : Cache → α → Prop)
    (result : Cached (Option α)) : Prop where
  grown : scope.Grown first result.2
  within : Within before result.2
  holds : ∀ value, result.1 = .ok (some value) → holds result.2 value

namespace Grows

variable {holds : Cache → α → Prop} {holdsNext : Cache → β → Prop}

theorem error (grown : scope.Grown first before) (error : Error) :
    scope.Grows first before holds (.error error, before) := ⟨grown, .refl before, nofun⟩

theorem ok (grown : scope.Grown first before) (value : α) (here : holds before value) :
    scope.Grows first before holds (.ok (some value), before) := by
  refine ⟨grown, .refl before, ?_⟩
  rintro _ ⟨⟩
  exact here

theorem andThen {result : Cached (Option α)} {next : α → Cache → Cached (Option β)}
    (grows : scope.Grows first before holds result)
    (goesOn : ∀ value between, scope.Grown first between → Within before between →
      holds between value → scope.Grows first between holdsNext (next value between)) :
    scope.Grows first before holdsNext (Scope.andThen result next) := by
  obtain ⟨grown, within, here⟩ := grows
  obtain ⟨error | _ | value, between⟩ := result
  · exact ⟨grown, within, nofun⟩
  · exact ⟨grown, within, nofun⟩
  · obtain ⟨grownNext, withinNext, there⟩ := goesOn value between grown within (here value rfl)
    exact ⟨grownNext, within.trans withinNext, there⟩

/-- An answer that the cache explains is the one that the cache has once it is kept. -/
theorem keep {result : Cached (Option Descriptor)}
    (grows : scope.Grows first before (scope.Explains · key) result) (strict : Bool) :
    scope.Grows first before (fun cache type => cache.lookup key = some type)
      (Scope.keep strict key result) := by
  obtain ⟨grown, within, explains⟩ := grows
  obtain ⟨error | _ | type, cache⟩ := result
  · exact ⟨grown, within, nofun⟩
  · cases strict <;> exact ⟨grown, within, nofun⟩
  · rw [Scope.keep]
    split
    next earlier known =>
      refine ⟨grown, within, ?_⟩
      rintro _ ⟨⟩
      exact known
    next unknown =>
      refine ⟨.keep grown unknown (explains type rfl), within.trans (.cons_right unknown type), ?_⟩
      rintro _ ⟨⟩
      exact List.lookup_cons_self

end Grows

/-- Whatever cache has grown from the first one, resolving the expression only adds to it, and the
answer is then the one that it has. -/
def Learned (scope : Scope) (first : Cache)
    (resolve : TypeExpr → Cache → Cached (Option Descriptor)) (expr : TypeExpr) : Prop :=
  ∀ cache, scope.Grown first cache →
    scope.Grows first cache (fun cache type => cache.lookup expr.key = some type)
      (resolve expr cache)

theorem grows_resolveEach (learned : ∀ expr ∈ exprs, scope.Learned first resolve expr)
    (grown : scope.Grown first before) :
    scope.Grows first before (·.Knows (exprs.map (·.key))) (resolveEach resolve exprs before) := by
  induction exprs generalizing before with
  | nil => exact .ok grown [] .nil
  | cons expr rest ih =>
      rw [resolveEach_cons]
      apply (learned expr List.mem_cons_self before grown).andThen
      intro type between grownBetween _ known
      apply (ih (fun expr member => learned expr (List.mem_cons_of_mem _ member))
        grownBetween).andThen
      intro types after grownAfter within knownRest
      exact .ok grownAfter (type :: types) (.cons (within _ _ known) knownRest)

/-- What an expression comes down to explains the answer for it, if it reads back. -/
theorem grows_resolveParts (reads : expr.ReadsBack)
    (learned : ∀ expr : TypeExpr, expr.ReadsBack → scope.Learned first resolve expr)
    (grown : scope.Grown first before) :
    scope.Grows first before (scope.Explains · expr.key)
      (scope.resolveParts resolve expr before) := by
  rw [resolveParts]
  split
  next element arguments shape =>
    obtain ⟨elementReads, argumentsRead, definition, others, found, definitionKey, othersKeys⟩ :=
      reads.application shape
    rw [resolveApplication_eq]
    apply (learned element elementReads before grown).andThen
    intro type between grownBetween _ known
    have others := grows_resolveEach
      (fun argument member => learned argument (argumentsRead argument member)) grownBetween
    apply others.andThen
    intro types after grownAfter within knownArguments
    refine ⟨grownAfter, .refl after, ?_⟩
    intro answer closed
    obtain ⟨_, closes, same⟩ := map_eq_ok_iff.mp closed
    cases same
    rw [← definitionKey] at known
    rw [← othersKeys] at knownArguments
    rw [Explains, found]
    exact ⟨type, types, within _ _ known, knownArguments, closes⟩
  next element modifier shape =>
    rw [resolveModification_eq]
    apply (learned (.named element) (.named element) before grown).andThen
    intro type between grownBetween _ known
    apply Grows.ok grownBetween
    rw [Explains, reads.modification shape]
    exact ⟨type, known, rfl⟩
  next shape =>
    refine ⟨grown, .refl before, ?_⟩
    intro type found
    rw [Explains, reads.plain shape]
    exact Except.ok.inj found

theorem learned_resolveWithin (depth : Nat) (reads : expr.ReadsBack) :
    scope.Learned first (scope.resolveWithin strict depth) expr := by
  induction depth generalizing expr with
  | zero =>
      intro cache grown
      exact .error grown _
  | succ depth ih =>
      intro cache grown
      cases known : cache.lookup expr.key with
      | some type =>
          rw [resolveWithin_of_known known]
          exact .ok grown type known
      | none =>
          rw [resolveWithin_of_unknown known]
          exact (grows_resolveParts reads (fun _ reads => ih reads) grown).keep strict

/-! ## What a larger cache changes -/

/-- Unless the first resolution nests too deeply, the second one answers the same and knows all
that the first one does. -/
def Follows (fresh later : Cached α) : Prop :=
  fresh.1 = .error (.tooDeep depthLimit) ∨ later.1 = fresh.1 ∧ Within fresh.2 later.2

namespace Follows

theorem andThen {fresh later : Cached (Option α)}
    {next : α → Cache → Cached (Option β)} (follows : Follows fresh later)
    (goesOn : ∀ value, Within fresh.2 later.2 →
      Follows (next value fresh.2) (next value later.2)) :
    Follows (Scope.andThen fresh next) (Scope.andThen later next) := by
  rcases follows with tooDeep | ⟨same, within⟩
  · left
    obtain ⟨answer, cache⟩ := fresh
    cases tooDeep
    rfl
  · obtain ⟨answer, cache⟩ := fresh
    obtain ⟨answer, larger⟩ := later
    cases same
    rcases answer with error | _ | value
    · exact .inr ⟨rfl, within⟩
    · exact .inr ⟨rfl, within⟩
    · exact goesOn value within

/-- What is kept follows as well, as caches that have grown from the same one agree. -/
theorem keep {fresh later : Cached (Option Descriptor)} (follows : Follows fresh later)
    (grows : scope.Grows first before (scope.Explains · key) fresh)
    (grownLater : scope.Grown first later.2) :
    Follows (Scope.keep strict key fresh) (Scope.keep strict key later) := by
  obtain ⟨answer, cache⟩ := fresh
  obtain ⟨answerLater, larger⟩ := later
  obtain ⟨grown, _, explains⟩ := grows
  rcases follows with tooDeep | ⟨same, within⟩
  · cases tooDeep
    exact .inl rfl
  · cases same
    rcases answer with error | _ | type
    · exact .inr ⟨rfl, within⟩
    · cases strict <;> exact .inr ⟨rfl, within⟩
    · right
      rw [Scope.keep, Scope.keep]
      cases known : cache.lookup key with
      | some earlier =>
          rw [within _ _ known]
          exact ⟨rfl, within⟩
      | none =>
          cases knownLarger : larger.lookup key with
          | some earlier =>
              have kept : scope.Grown first ((key, type) :: cache) :=
                .keep grown known (explains type rfl)
              have same := kept.agree grownLater _ _ _ List.lookup_cons_self knownLarger
              rw [← same] at knownLarger ⊢
              exact ⟨rfl, within.cons_left knownLarger⟩
          | none =>
              have grows := within.trans (.cons_right knownLarger type)
              exact ⟨rfl, grows.cons_left List.lookup_cons_self⟩

end Follows

/-- The expression is learned, and resolved alike with every cache that has grown further. -/
structure Behaves (scope : Scope) (first : Cache)
    (resolve : TypeExpr → Cache → Cached (Option Descriptor)) (expr : TypeExpr) : Prop where
  learned : scope.Learned first resolve expr
  follows : ∀ cache larger, scope.Grown first cache → scope.Grown first larger →
    Within cache larger → Follows (resolve expr cache) (resolve expr larger)

theorem follows_resolveEach (behaves : ∀ expr ∈ exprs, scope.Behaves first resolve expr)
    (grown : scope.Grown first cache) (grownLarger : scope.Grown first larger)
    (within : Within cache larger) :
    Follows (resolveEach resolve exprs cache) (resolveEach resolve exprs larger) := by
  induction exprs generalizing cache larger with
  | nil => exact .inr ⟨rfl, within⟩
  | cons expr rest ih =>
      have here := behaves expr List.mem_cons_self
      rw [resolveEach_cons, resolveEach_cons]
      apply (here.follows cache larger grown grownLarger within).andThen
      intro type within
      have others := ih (fun expr member => behaves expr (List.mem_cons_of_mem _ member))
        (here.learned cache grown).grown (here.learned larger grownLarger).grown within
      apply others.andThen
      intro types within
      exact .inr ⟨rfl, within⟩

theorem follows_resolveParts (reads : expr.ReadsBack)
    (behaves : ∀ expr : TypeExpr, expr.ReadsBack → scope.Behaves first resolve expr)
    (grown : scope.Grown first cache) (grownLarger : scope.Grown first larger)
    (within : Within cache larger) :
    Follows (scope.resolveParts resolve expr cache) (scope.resolveParts resolve expr larger) := by
  rw [resolveParts, resolveParts]
  split
  next element arguments shape =>
    obtain ⟨elementReads, argumentsRead, _⟩ := reads.application shape
    have here := behaves element elementReads
    rw [resolveApplication_eq, resolveApplication_eq]
    apply (here.follows cache larger grown grownLarger within).andThen
    intro definition within
    have others := follows_resolveEach
      (fun argument member => behaves argument (argumentsRead argument member))
      (here.learned cache grown).grown (here.learned larger grownLarger).grown within
    apply others.andThen
    intro types within
    exact .inr ⟨rfl, within⟩
  next element modifier shape =>
    have here := behaves (.named element) (.named element)
    rw [resolveModification_eq, resolveModification_eq]
    apply (here.follows cache larger grown grownLarger within).andThen
    intro type within
    exact .inr ⟨rfl, within⟩
  next => exact .inr ⟨rfl, within⟩

theorem resolveEach_of_knows {types : List Descriptor}
    (knows : cache.Knows (exprs.map (·.key)) types) :
    resolveEach (scope.resolveWithin strict (depth + 1)) exprs cache =
      (.ok (some types), cache) := by
  induction exprs generalizing types with
  | nil =>
      cases knows
      rfl
  | cons expr rest ih =>
      cases knows with
      | cons known knowsRest =>
          rw [resolveEach_cons, resolveWithin_of_known known]
          dsimp only [Scope.andThen]
          rw [ih knowsRest]

/-- A cache that explains the expression has all that it comes down to. -/
theorem resolveParts_of_explains (strict : Bool) (depth : Nat) (reads : expr.ReadsBack)
    (explains : scope.Explains cache expr.key type) :
    scope.resolveParts (scope.resolveWithin strict (depth + 1)) expr cache =
      (.ok (some type), cache) := by
  rw [resolveParts]
  split
  next element arguments shape =>
    obtain ⟨_, _, definition, others, found, definitionKey, othersKeys⟩ := reads.application shape
    rw [Explains, found] at explains
    obtain ⟨generic, types, known, knows, closes⟩ := explains
    rw [definitionKey] at known
    rw [othersKeys] at knows
    rw [resolveApplication_eq, resolveWithin_of_known known]
    dsimp only [Scope.andThen]
    rw [resolveEach_of_knows knows]
    dsimp only
    rw [closes]
    rfl
  next element modifier shape =>
    rw [Explains, reads.modification shape] at explains
    obtain ⟨part, known, rfl⟩ := explains
    rw [resolveModification_eq, resolveWithin_of_known known]
    rfl
  next shape =>
    rw [Explains, reads.plain shape] at explains
    rw [explains]

/-- What is resolved afresh agrees with what the larger cache explains. -/
theorem follows_of_explains (reads : expr.ReadsBack)
    (behaves : ∀ expr : TypeExpr, expr.ReadsBack →
      scope.Behaves first (scope.resolveWithin strict depth) expr)
    (grown : scope.Grown first cache) (grownLarger : scope.Grown first larger)
    (within : Within cache larger) (explains : scope.Explains larger expr.key type) :
    Follows (scope.resolveParts (scope.resolveWithin strict depth) expr cache)
      (.ok (some type), larger) := by
  cases depth with
  | zero =>
      -- Nothing that the expression comes down to may be resolved at this depth.
      rw [resolveParts]
      split
      next => exact .inl rfl
      next => exact .inl rfl
      next shape =>
        rw [Explains, reads.plain shape] at explains
        exact .inr ⟨congrArg Except.ok explains.symm, within⟩
  | succ depth =>
      rw [← resolveParts_of_explains strict depth reads explains]
      exact follows_resolveParts reads behaves grown grownLarger within

theorem behaves_resolveWithin (depth : Nat) (reads : expr.ReadsBack) :
    scope.Behaves first (scope.resolveWithin strict depth) expr := by
  induction depth generalizing expr with
  | zero => exact ⟨learned_resolveWithin 0 reads, fun _ _ _ _ _ => .inl rfl⟩
  | succ depth ih =>
      refine ⟨learned_resolveWithin (depth + 1) reads, ?_⟩
      intro cache larger grown grownLarger within
      cases known : cache.lookup expr.key with
      | some type =>
          rw [resolveWithin_of_known known, resolveWithin_of_known (within _ _ known)]
          exact .inr ⟨rfl, within⟩
      | none =>
          have learned : ∀ expr : TypeExpr, expr.ReadsBack → _ := fun _ reads => (ih reads).learned
          have grows := grows_resolveParts reads learned grown
          rw [resolveWithin_of_unknown known]
          cases knownLarger : larger.lookup expr.key with
          | some type =>
              have notFirst : first.lookup expr.key ≠ some type := by
                intro fromFirst
                rw [grown.within _ _ fromFirst] at known
                cases known
              have explains := (grownLarger.explains knownLarger).resolve_left notFirst
              have follows := follows_of_explains reads (fun _ => ih) grown grownLarger within
                explains
              have kept : keep strict expr.key (.ok (some type), larger) =
                  (.ok (some type), larger) := by rw [keep, knownLarger]
              rw [resolveWithin_of_known knownLarger, ← kept]
              exact follows.keep grows grownLarger
          | none =>
              have growsLarger := grows_resolveParts reads learned grownLarger
              have follows := follows_resolveParts reads (fun _ => ih) grown grownLarger within
              rw [resolveWithin_of_unknown knownLarger]
              exact follows.keep grows growsLarger.grown

end Scope

/-! ## Nesting -/

/-- A definition applied to its own application, so many times over. -/
def TypeExpr.nested (element argument : TypeExpr) : Nat → TypeExpr
  | 0 => argument
  | count + 1 => .applied element [nested element argument count]

namespace Scope

open TypeExpr (nested)

/-- The definition is found, in the cache or beyond it, without anything generic being kept. -/
theorem resolveWithin_plain (plain : TypeName.IsPlain expr.key)
    (found : scope.lookup expr.key = some definition)
    (bare : ∀ entry ∈ cache, '[' ∉ entry.1.toList) (strict : Bool) (depth : Nat) :
    ∃ type after, scope.resolveWithin strict (depth + 1) expr cache = (.ok (some type), after) ∧
      ∀ entry ∈ after, '[' ∉ entry.1.toList := by
  cases known : cache.lookup expr.key with
  | some type => exact ⟨type, cache, resolveWithin_of_known known, bare⟩
  | none =>
      refine ⟨definition, (expr.key, definition) :: cache, ?_, ?_⟩
      · rw [resolveWithin_of_unknown known,
          resolveParts_plain (TypeExpr.shape_of_isPlain plain), keep_of_lookup_eq_none known, found]
      · exact List.forall_mem_cons.mpr ⟨plain.1, bare⟩

/-- An application that nests as deep as the limit is refused while nothing generic is known. -/
theorem resolveWithin_nested_of_le (plain : TypeName.IsPlain element.key)
    (found : scope.lookup element.key = some definition)
    (bare : ∀ entry ∈ cache, '[' ∉ entry.1.toList) (deep : depth ≤ count) :
    ∃ after, scope.resolveWithin strict depth (nested element argument count) cache =
      (.error (.tooDeep depthLimit), after) := by
  induction depth generalizing count cache with
  | zero => exact ⟨cache, rfl⟩
  | succ depth ih =>
      obtain ⟨count, rfl⟩ := Nat.exists_eq_succ_of_ne_zero (Nat.ne_zero_of_lt deep)
      have unknown : cache.lookup (nested element argument (count + 1)).key = none := by
        rw [List.lookup_eq_none_iff]
        intro entry member
        rw [bne_iff_ne]
        intro same
        apply bare entry member
        rw [← same]
        exact TypeExpr.mem_key_applied
      rw [resolveWithin_of_unknown unknown, nested, resolveParts_applied, resolveApplication_eq]
      cases depth with
      | zero => exact ⟨cache, rfl⟩
      | succ depth =>
          obtain ⟨type, between, resolved, bareBetween⟩ :=
            resolveWithin_plain plain found bare strict depth
          obtain ⟨after, refused⟩ := ih bareBetween (Nat.le_of_succ_le_succ deep)
          rw [resolved]
          dsimp only [Scope.andThen]
          rw [resolveEach_cons, refused]
          exact ⟨after, rfl⟩

/-- Once an inner application is known, one that nests deeper by less than the limit resolves. -/
theorem resolveWithin_nested_of_known (defined : cache.lookup element.key = some definition)
    (unary : definition.arity = 1)
    (known : cache.lookup (nested element argument count).key = some type)
    (shallow : further < depth) :
    ∃ type after, scope.resolveWithin strict depth (nested element argument (count + further))
      cache = (.ok (some type), after) := by
  obtain ⟨depth, rfl⟩ := Nat.exists_eq_succ_of_ne_zero (Nat.ne_zero_of_lt shallow)
  induction further generalizing depth with
  | zero => exact ⟨type, cache, resolveWithin_of_known known⟩
  | succ further ih =>
      cases here : cache.lookup (nested element argument (count + (further + 1))).key with
      | some type => exact ⟨type, cache, resolveWithin_of_known here⟩
      | none =>
          obtain ⟨depth, rfl⟩ := Nat.exists_eq_succ_of_ne_zero
            (Nat.ne_zero_of_lt (Nat.lt_of_succ_lt_succ shallow))
          obtain ⟨inner, after, resolved⟩ := ih depth (Nat.lt_of_succ_lt_succ shallow)
          have closes : definition.close [inner] = .ok (.closed definition [inner]) := by
            rw [Descriptor.close, unary]
            rfl
          rw [resolveWithin_of_unknown here, ← Nat.add_assoc, nested, resolveParts_applied,
            resolveApplication_eq, resolveWithin_of_known defined]
          dsimp only [Scope.andThen]
          rw [resolveEach_cons, resolved]
          dsimp only [Scope.andThen, resolveEach]
          rw [closes]
          dsimp only [Except.map]
          rw [keep]
          split
          next earlier _ => exact ⟨earlier, after, rfl⟩
          next => exact ⟨_, _, rfl⟩

end Scope

/-! ## Earlier resolutions -/

namespace Binder

variable {binder : Binder} {calls : List (Bool × TypeExpr)}

/-- What nests as deep as the limit is refused while nothing generic is known. -/
theorem resolve_nested_of_le (plain : TypeName.IsPlain element.key)
    (found : binder.scope.lookup element.key = some definition)
    (bare : ∀ entry ∈ binder.cache, '[' ∉ entry.1.toList) (deep : Scope.depthLimit ≤ count) :
    (binder.resolve strict (.nested element argument count)).1 =
      .error (.tooDeep Scope.depthLimit) := by
  have refused : ∃ after, binder.scope.resolveWithin strict Scope.depthLimit
      (.nested element argument count) binder.cache = (.error (.tooDeep Scope.depthLimit), after) :=
    Scope.resolveWithin_nested_of_le plain found bare deep
  obtain ⟨after, refused⟩ := refused
  exact congrArg Prod.fst refused

/-- Once an inner part is known, what nests deeper by less than the limit is resolved. -/
theorem resolve_nested_of_known
    (defined : binder.cache.lookup element.key = some definition) (unary : definition.arity = 1)
    (known : binder.cache.lookup (TypeExpr.nested element argument count).key = some type)
    (shallow : further < Scope.depthLimit) :
    ∃ type, (binder.resolve strict (.nested element argument (count + further))).1 =
      .ok (some type) := by
  have resolved : ∃ type after, binder.scope.resolveWithin strict Scope.depthLimit
      (.nested element argument (count + further)) binder.cache = (.ok (some type), after) :=
    Scope.resolveWithin_nested_of_known defined unary known shallow
  obtain ⟨type, after, resolved⟩ := resolved
  exact ⟨type, congrArg Prod.fst resolved⟩

theorem grown_resolveAll (read : ∀ call ∈ calls, call.2.ReadsBack)
    (grown : binder.scope.Grown first binder.cache) :
    binder.scope.Grown first (binder.resolveAll calls).cache := by
  induction calls generalizing binder with
  | nil => exact grown
  | cons call rest ih =>
      have reads := read call List.mem_cons_self
      have next : (binder.resolve call.1 call.2).2.scope.Grown first
          (binder.resolve call.1 call.2).2.cache :=
        (Scope.learned_resolveWithin Scope.depthLimit reads binder.cache grown).grown
      exact ih (fun other member => read other (List.mem_cons_of_mem _ member)) next

/-- Whatever was resolved before, an expression resolves as it does with a fresh binder, unless it
nests too deeply for that one. This holds among expressions that read back. -/
theorem resolve_resolveAll (binder : Binder) (calls : List (Bool × TypeExpr))
    (read : ∀ call ∈ calls, call.2.ReadsBack) (strict : Bool) (expr : TypeExpr)
    (reads : expr.ReadsBack)
    (shallow : (binder.resolve strict expr).1 ≠ .error (.tooDeep Scope.depthLimit)) :
    ((binder.resolveAll calls).resolve strict expr).1 = (binder.resolve strict expr).1 := by
  have grown : binder.scope.Grown binder.cache (binder.resolveAll calls).cache :=
    grown_resolveAll read .start
  have behaves : binder.scope.Behaves binder.cache
      (binder.scope.resolveWithin strict Scope.depthLimit) expr :=
    Scope.behaves_resolveWithin Scope.depthLimit reads
  have follows := behaves.follows binder.cache _ .start grown grown.within
  rcases follows with tooDeep | ⟨same, _⟩
  · exact absurd tooDeep shallow
  · rw [resolve, scope_resolveAll]
    exact same

end Binder

namespace Sample

/-- The environment of a universe without files. -/
def core : Environment Universe :=
  Universe.environment {} "mscorlib" []

/-- The binder of an empty module. -/
def bare : Binder where
  scope := ⟨core.builtin .new, ⟨"App", []⟩, []⟩

def nullable : Nat → TypeExpr :=
  .nested (.named "System.Nullable`1") (.named "System.Int32")

end Sample

namespace Binder

theorem ofModule_bare :
    ofModule Sample.core [] { name := "App" } .new = (.ok Sample.bare, .new) := by
  rw [ofModule]
  dsimp only [Environment.dependencies]
  rw [describe]
  rfl

/-- An application is known by its name once an array of it has been resolved. -/
theorem resolve_resolveAll_nullable :
    let expr := TypeName.read id "System.Nullable`1[System.Int32]".toList
    let calls := [(false, TypeExpr.named "System.Nullable`1[System.Int32][]")]
    (∀ call ∈ calls, call.2.ReadsBack) ∧ expr.ReadsBack ∧
      (Sample.bare.resolve true expr).1 ≠ .error (.tooDeep Scope.depthLimit) ∧
      ((Sample.bare.resolveAll calls).resolve true expr).1 = (Sample.bare.resolve true expr).1 := by
  intro expr calls
  have read : ∀ call ∈ calls, call.2.ReadsBack := List.forall_mem_singleton.mpr (.named _)
  have reads : expr.ReadsBack := TypeExpr.readsBack_read (by decide +kernel)
  have succeeds : (Sample.bare.resolve true expr).1.toOption.any Option.isSome = true := by
    decide +kernel
  obtain ⟨type, resolved, _⟩ := exists_eq_ok_of_any succeeds
  have shallow : (Sample.bare.resolve true expr).1 ≠ .error (.tooDeep Scope.depthLimit) := by
    rw [resolved]
    exact nofun
  exact ⟨read, reads, shallow, resolve_resolveAll _ calls read true expr reads shallow⟩

/-- A type nested too deeply for a fresh binder is resolved once its innermost part is known. -/
theorem resolve_resolveAll_nested :
    ofModule Sample.core [] { name := "App" } .new = (.ok Sample.bare, .new) ∧
      (Sample.bare.resolve true (Sample.nullable 100)).1 = .error (.tooDeep Scope.depthLimit) ∧
      ∃ type, ((Sample.bare.resolveAll [(true, Sample.nullable 1)]).resolve true
        (Sample.nullable 100)).1 = .ok (some type) := by
  refine ⟨ofModule_bare, ?_, ?_⟩
  · have plain : TypeName.IsPlain (TypeExpr.named "System.Nullable`1").key := by decide +kernel
    have found : (Sample.bare.scope.lookup (TypeExpr.named "System.Nullable`1").key).isSome =
        true := by decide +kernel
    obtain ⟨definition, found⟩ := Option.isSome_iff_exists.mp found
    exact resolve_nested_of_le plain found nofun (Nat.le_refl 100)
  · have defined : ((Sample.bare.resolveAll [(true, Sample.nullable 1)]).cache.lookup
        (TypeExpr.named "System.Nullable`1").key).any (·.arity == 1) = true := by decide +kernel
    have known : ((Sample.bare.resolveAll [(true, Sample.nullable 1)]).cache.lookup
        (Sample.nullable 1).key).isSome = true := by decide +kernel
    obtain ⟨definition, defined, unary⟩ := (Option.any_eq_true ..).mp defined
    obtain ⟨inner, known⟩ := Option.isSome_iff_exists.mp known
    have shallow : 99 < Scope.depthLimit := by decide
    exact resolve_nested_of_known defined (beq_iff_eq.mp unary) known shallow

end Binder

end Splice
