import Splice.Proofs.Binding.Bases

/-!
# The order of declarations

Where all bases are plain names, it does not matter in which order a module declares its types. A
type that is declared before its base waits for a further round, so other orders take other rounds
and resolve other bases first. But a type that keeps its base has fewer bases behind it than one that
derives from it, and by induction on their number it keeps the same base in every order.
-/

namespace Splice

variable {σ : Type} {env : Environment σ} {directories : List String} {module : Module}
variable {world : σ} {decls others stuck loose : List TypeDecl} {name : String}
variable {decl : TypeDecl} {type : Descriptor} {left right binder : Binder} {early first : Scope}
variable {holds : String → Descriptor → Prop}

/-! ## Reordered modules -/

namespace Scope

/-- The types from outside of the module are the same. -/
structure SharesOutside (scope other : Scope) : Prop where
  builtin : scope.builtin = other.builtin
  dependencies : scope.dependencies = other.dependencies

variable {scope other : Scope}

theorem SharesOutside.symm (shares : scope.SharesOutside other) : other.SharesOutside scope :=
  ⟨shares.builtin.symm, shares.dependencies.symm⟩

/-- What the module does not tell apart is looked up alike. -/
theorem SharesOutside.lookup_eq (shares : scope.SharesOutside other)
    (own : scope.own.get? name = other.own.get? name) : scope.lookup name = other.lookup name := by
  rw [lookup, lookup, shares.builtin, shares.dependencies, own]

theorem Distinguishes.perm (distinguishes : scope.Distinguishes decls)
    (shares : scope.SharesOutside other) (perm : decls.Perm others) :
    other.Distinguishes others where
  names := (perm.map _).nodup_iff.mp distinguishes.names
  builtin decl member := by
    rw [← shares.builtin]
    exact distinguishes.builtin decl (perm.mem_iff.mpr member)
  dependencies decl member := by
    rw [← shares.dependencies]
    exact distinguishes.dependencies decl (perm.mem_iff.mpr member)

/-- A type is linked to one base at most. -/
theorem Links.unique {base found : Option Descriptor} (links : scope.Links holds decl base)
    (linksFound : scope.Links holds decl found)
    (plain : ∀ expr, decl.base = some expr → TypeName.IsPlain expr.key) : base = found := by
  cases base with
  | none =>
      cases found with
      | none => rfl
      | some other =>
          obtain ⟨expr, hasBase, _⟩ := linksFound
          rw [links] at hasBase
          cases hasBase
  | some type =>
      obtain ⟨expr, hasBase, _, finds⟩ := links
      cases found with
      | none =>
          rw [linksFound] at hasBase
          cases hasBase
      | some other =>
          obtain ⟨_, sameBase, _, findsOther⟩ := linksFound
          rw [hasBase] at sameBase
          cases sameBase
          have isPlain := plain expr hasBase
          exact (finds isPlain).symm.trans (findsOther isPlain)

end Scope

namespace Binder

/-- Two outcomes for the types of a module, in different orders. -/
structure Reordered (module : Module) (others : List TypeDecl) (early first : Scope)
    (stuck loose : List TypeDecl) (left right : Binder) : Prop where
  perm : module.types.Perm others
  plain : ∀ decl ∈ module.types, ∀ base, decl.base = some base → TypeName.IsPlain base.key
  shares : left.scope.SharesOutside right.scope
  distinguishes : left.scope.Distinguishes module.types
  undeclared : ∀ name, (∀ decl ∈ module.types, decl.runtimeName ≠ name) →
    left.scope.own.get? name = none ∧ right.scope.own.get? name = none
  outcome : IsOutcome (fun _ _ => True) module early stuck left
  otherOutcome : IsOutcome (fun _ _ => True) { module with types := others } first loose right

namespace Reordered

theorem symm (reordered : Reordered module others early first stuck loose left right) :
    Reordered { module with types := others } module.types first early loose stuck right left where
  perm := reordered.perm.symm
  plain decl member := reordered.plain decl (reordered.perm.mem_iff.mpr member)
  shares := reordered.shares.symm
  distinguishes := reordered.distinguishes.perm reordered.shares reordered.perm
  undeclared name elsewhere := (reordered.undeclared name fun decl member =>
    elsewhere decl (reordered.perm.mem_iff.mp member)).symm
  outcome := reordered.otherOutcome
  otherOutcome := reordered.outcome

end Reordered

/-! ## Binders of reordered modules -/

end Binder

end Splice
