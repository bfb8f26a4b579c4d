import Splice.Proofs.Binding.Bases

/-!
# Hierarchies

A module whose types derive from one another, each at most from one other type of the module, and
never in a circle. All its types keep their bases, and the bases of a type's descriptor are the
descriptors of the types that it derives from.
-/

namespace Splice

open Relation (ReflTransGen TransGen)

variable {scope : Scope} {binder : Binder} {decl other : TypeDecl} {type base : Descriptor}
variable {σ : Type} {env : Environment σ} {directories : List String} {module : Module}
variable {world ended : σ}

namespace TypeDecl

/-- The name has no characters that stand for arguments, modifiers or nesting, and no blanks. Only
the name of a nested type has a slash. -/
structure IsPlain (decl : TypeDecl) : Prop where
  bare : ∀ character ∈ decl.fullName.toList,
    character ∉ ['<', '>', '[', ']', '+', '&', '*', ','] ∧ Text.isBlank character = false
  slash : '/' ∈ decl.fullName.toList → decl.outer.isSome

instance : DecidablePred IsPlain := fun decl =>
  have : Decidable (∀ character ∈ decl.fullName.toList,
      character ∉ ['<', '>', '[', ']', '+', '&', '*', ','] ∧ Text.isBlank character = false) :=
    List.decidableBAll _ _
  decidable_of_iff (_ ∧ ('/' ∈ decl.fullName.toList → decl.outer.isSome))
    ⟨fun ⟨bare, slash⟩ => ⟨bare, slash⟩, fun ⟨bare, slash⟩ => ⟨bare, slash⟩⟩

namespace IsPlain

variable {character : Char}

/-- A nested type is known at run time by the same name, written the other way. -/
theorem key_toExpr (plain : decl.IsPlain) : decl.toExpr.key = decl.runtimeName := by
  apply String.toList_injective
  rw [toExpr, TypeExpr.toList_key_named]
  have slash := plain.slash
  have bare := plain.bare
  rw [fullName] at slash bare ⊢
  rw [runtimeName, Header.fullName, header]
  cases nested : decl.outer with
  | some outer =>
      simp [TypeName.toRuntime, String.toList_map, TypeName.runtimeChar]
  | none =>
      rw [nested] at slash bare
      dsimp only at slash bare ⊢
      apply TypeName.IsRuntime.map_eq_self
      intro character member
      apply TypeName.runtimeChar_of_notMem
      have unmarked := (bare character member).1
      have unslashed : character ≠ '/' := by
        rintro rfl
        cases slash member
      simp only [List.mem_cons, not_or] at unmarked ⊢
      simp [unmarked, unslashed]

theorem unmarked_of_mem (plain : decl.IsPlain) (member : character ∈ decl.runtimeName.toList) :
    character ∉ ['[', ']', '&', '*'] := by
  rw [← plain.key_toExpr, toExpr, TypeExpr.toList_key_named] at member
  obtain ⟨written, writtenMember, rfl⟩ := List.mem_map.mp member
  have unmarked := (plain.bare written writtenMember).1
  unfold TypeName.runtimeChar
  split
  · simp at unmarked
  · simp at unmarked
  · decide
  · simp only [List.mem_cons, not_or] at unmarked ⊢
    simp [unmarked]

theorem isPlain_runtimeName (plain : decl.IsPlain) : TypeName.IsPlain decl.runtimeName := by
  refine ⟨fun member => plain.unmarked_of_mem member (by decide), ?_⟩
  apply TypeName.splitModifier_eq_none
  intro character member
  have unmarked := plain.unmarked_of_mem member
  simp only [List.mem_cons, not_or] at unmarked ⊢
  simp [unmarked]

end IsPlain

end TypeDecl

namespace Module

/-- The one type of the module names the other as its base. -/
def Extends (module : Module) (decl other : TypeDecl) : Prop :=
  decl ∈ module.types ∧ other ∈ module.types ∧
    ∃ base, decl.base = some base ∧ base.key = other.runtimeName

theorem Extends.unique (distinct : (module.types.map (·.runtimeName)).Nodup) {target : TypeDecl}
    (extended : module.Extends decl other) (also : module.Extends decl target) :
    other = target := by
  obtain ⟨_, otherMember, base, hasBase, names⟩ := extended
  obtain ⟨_, targetMember, _, sameBase, alsoNames⟩ := also
  rw [hasBase] at sameBase
  cases sameBase
  exact List.inj_on_of_nodup_map distinct otherMember targetMember (names.symm.trans alsoNames)

theorem mem_of_derives (derives : TransGen module.Extends decl other) : other ∈ module.types := by
  cases derives with
  | single extended => exact extended.2.1
  | tail _ extended => exact extended.2.1

/-- The types have plain names, and those that have bases derive from other types of the module,
none from itself. -/
structure IsHierarchy (module : Module) : Prop where
  plain : ∀ decl ∈ module.types, decl.IsPlain
  bases : ∀ decl ∈ module.types, decl.base = none ∨ ∃ other, module.Extends decl other
  acyclic : ∀ decl, ¬ TransGen module.Extends decl decl

namespace IsHierarchy

theorem isPlain_of_extends (hierarchy : module.IsHierarchy) (extended : module.Extends decl other)
    {expr : TypeExpr} (hasBase : decl.base = some expr) :
    expr.key = other.runtimeName ∧ TypeName.IsPlain expr.key := by
  obtain ⟨_, otherMember, base, sameBase, names⟩ := extended
  rw [hasBase] at sameBase
  cases sameBase
  rw [names]
  exact ⟨rfl, (hierarchy.plain other otherMember).isPlain_runtimeName⟩

/-- Bases are plain names, so a base mentions just the type that it names. -/
theorem extends_of_needs (hierarchy : module.IsHierarchy) (needs : module.Needs decl other) :
    module.Extends decl other := by
  obtain ⟨member, otherMember, base, hasBase, mentions⟩ := needs
  rcases hierarchy.bases decl member with bare | ⟨target, extended⟩
  · rw [bare] at hasBase
    cases hasBase
  · have plain := (hierarchy.isPlain_of_extends extended hasBase).2
    exact ⟨member, otherMember, base, hasBase, (TypeExpr.mentions_iff_of_isPlain plain).mp mentions⟩

/-- All types of a hierarchy are grounded, once they are all found. -/
theorem grounds (hierarchy : module.IsHierarchy)
    (found : ∀ decl ∈ module.types, (scope.lookup decl.runtimeName).isSome)
    (member : decl ∈ module.types) : scope.Grounds module.types decl := by
  apply module.grounds_of_acyclic member
  · intro other reaches expr hasBase
    have otherMember : other ∈ module.types := by
      cases reaches with
      | refl => exact member
      | tail _ needs => exact needs.2.1
    rcases hierarchy.bases other otherMember with bare | ⟨target, extended⟩
    · rw [bare] at hasBase
      cases hasBase
    · obtain ⟨names, plain⟩ := hierarchy.isPlain_of_extends extended hasBase
      obtain ⟨type, lookup⟩ := Option.isSome_iff_exists.mp (found target extended.2.1)
      rw [← names] at lookup
      exact .plain plain lookup
  · intro other _ cycle
    have narrower : module.Needs ≤ module.Extends := fun _ _ => hierarchy.extends_of_needs
    exact hierarchy.acyclic other (TransGen.mono narrower _ _ cycle)

end IsHierarchy

end Module

namespace Binder

/-- Every type of a hierarchy is described, and its base is the descriptor of the type that it
derives from. -/
theorem exists_described (made : ofModule env directories module world = (.ok binder, ended))
    (hierarchy : module.IsHierarchy) (distinguishes : binder.scope.Distinguishes module.types)
    (member : decl ∈ module.types) :
    ∃ found, binder.scope.own.get? decl.runtimeName =
        some (.declared (decl.header module.name) found) ∧
      (found = none ∧ decl.base = none ∨ ∃ other type, module.Extends decl other ∧
        found = some type ∧ binder.scope.own.get? other.runtimeName = some type) := by
  obtain ⟨early, stuck, outcome⟩ :=
    exists_isOutcome made distinguishes fun _ => upholds_trivial _
  have declared := (isOf_of_ofModule made).declared
  have found : ∀ decl ∈ module.types, (binder.scope.lookup decl.runtimeName).isSome := by
    intro decl member
    rw [distinguishes.lookup_eq member]
    exact declared decl member
  have notStuck := outcome.not_mem_of_grounds (hierarchy.grounds found member)
  rcases hierarchy.bases decl member with bare | ⟨other, extended⟩
  · obtain ⟨found, described, links⟩ := outcome.linked decl member notStuck
    cases found with
    | none => exact ⟨none, described, .inl ⟨rfl, bare⟩⟩
    | some type =>
        obtain ⟨base, hasBase, _⟩ := links
        rw [bare] at hasBase
        cases hasBase
  · obtain ⟨base, hasBase, _⟩ := extended.2.2
    obtain ⟨names, plain⟩ := hierarchy.isPlain_of_extends extended hasBase
    obtain ⟨type, described, describedOther⟩ := outcome.base_of_isPlain distinguishes member
      notStuck extended.2.1 hasBase plain names
    exact ⟨some type, described, .inr ⟨other, type, extended, rfl, describedOther⟩⟩

/-- The bases of a type's descriptor are the descriptors of the types that it derives from. -/
theorem mem_bases_iff (made : ofModule env directories module world = (.ok binder, ended))
    (hierarchy : module.IsHierarchy) (distinguishes : binder.scope.Distinguishes module.types)
    (member : decl ∈ module.types)
    (described : binder.scope.own.get? decl.runtimeName = some type) :
    base ∈ type.bases ↔ ∃ ancestor, TransGen module.Extends decl ancestor ∧
      binder.scope.own.get? ancestor.runtimeName = some base := by
  induction bound : type.bases.length using Nat.strong_induction_on generalizing decl type with
  | _ count ih =>
      obtain ⟨found, same, links⟩ := exists_described made hierarchy distinguishes member
      rw [described] at same
      cases same
      rcases links with ⟨rfl, bare⟩ | ⟨other, found, extended, rfl, describedOther⟩
      · rw [Descriptor.bases]
        constructor
        · intro baseMember
          cases baseMember
        · rintro ⟨ancestor, derives, _⟩
          obtain ⟨_, ⟨_, _, _, hasBase, _⟩, _⟩ := TransGen.head'_iff.mp derives
          rw [bare] at hasBase
          cases hasBase
      · have shorter : found.bases.length < count := by
          rw [← bound, Descriptor.bases, List.length_cons]
          exact Nat.lt_succ_self _
        have further := ih found.bases.length shorter extended.2.1 describedOther rfl
        rw [Descriptor.bases, List.mem_cons, further]
        constructor
        · rintro (rfl | ⟨ancestor, derives, describedAncestor⟩)
          · exact ⟨other, .single extended, describedOther⟩
          · exact ⟨ancestor, .head extended derives, describedAncestor⟩
        · rintro ⟨ancestor, derives, describedAncestor⟩
          obtain ⟨next, nextExtended, reaches⟩ := TransGen.head'_iff.mp derives
          cases extended.unique distinguishes.names nextExtended
          rcases Relation.reflTransGen_iff_eq_or_transGen.mp reaches with rfl | derivesFurther
          · rw [describedOther] at describedAncestor
            cases describedAncestor
            exact .inl rfl
          · exact .inr ⟨ancestor, derivesFurther, describedAncestor⟩

/-- What can be told of a descriptor by the declaration holds of one of the bases just if it holds
of one of the types that the type derives from. -/
theorem exists_mem_bases_iff (made : ofModule env directories module world = (.ok binder, ended))
    (hierarchy : module.IsHierarchy) (distinguishes : binder.scope.Distinguishes module.types)
    (member : decl ∈ module.types)
    (described : binder.scope.own.get? decl.runtimeName = some type) {good : Descriptor → Prop}
    {goodDecl : TypeDecl → Prop} (tells : ∀ ancestor ∈ module.types, ∀ found,
      good (.declared (ancestor.header module.name) found) ↔ goodDecl ancestor) :
    (∃ base ∈ type.bases, good base) ↔
      ∃ ancestor, TransGen module.Extends decl ancestor ∧ goodDecl ancestor := by
  have bases (base : Descriptor) : base ∈ type.bases ↔ _ :=
    mem_bases_iff made hierarchy distinguishes member described
  constructor
  · rintro ⟨base, baseMember, isGood⟩
    obtain ⟨ancestor, derives, describedAncestor⟩ := (bases base).mp baseMember
    have ancestorMember := Module.mem_of_derives derives
    obtain ⟨found, same, _⟩ := exists_described made hierarchy distinguishes ancestorMember
    rw [describedAncestor] at same
    cases same
    exact ⟨ancestor, derives, (tells ancestor ancestorMember found).mp isGood⟩
  · rintro ⟨ancestor, derives, isGood⟩
    have ancestorMember := Module.mem_of_derives derives
    obtain ⟨found, describedAncestor, _⟩ :=
      exists_described made hierarchy distinguishes ancestorMember
    exact ⟨_, (bases _).mpr ⟨ancestor, derives, describedAncestor⟩,
      (tells ancestor ancestorMember found).mpr isGood⟩

end Binder

end Splice
