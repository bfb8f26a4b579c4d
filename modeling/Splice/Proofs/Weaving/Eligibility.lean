import Splice.Proofs.Binding.Methods
import Splice.Weaving.Concern

/-!
# Eligibility

Which methods want a concern, in terms of the attributes that the module applies. In a hierarchy
this is a rule on the module alone: attributes of overridden methods and of the types that a type
derives from count along with those of the method and its own type, and a forbidding attribute on
the method wins. A method with a parameter type that does not resolve is judged by its own
attributes and those of its type.
-/

namespace Splice

open Relation (ReflTransGen TransGen)

variable {binder : Binder} {decl : TypeDecl} {method : Method} {type : Descriptor}
variable {marker name : String} {expr : TypeExpr} {σ : Type} {env : Environment σ}
variable {directories : List String} {module : Module} {world ended : σ}

/-! ## Attributes -/

/-- The name has no characters that differ between metadata and run time. -/
def TypeName.IsNeutral (name : String) : Prop :=
  ∀ character ∈ name.toList, character ∉ ['<', '>', '/', '[', ']', '+']

instance : DecidablePred TypeName.IsNeutral := fun name =>
  List.decidableBAll (· ∉ ['<', '>', '/', '[', ']', '+']) name.toList

theorem TypeName.runtimeChar_eq_self {character : Char}
    (neutral : TypeName.runtimeChar character ∉ ['<', '>', '/', '[', ']', '+']) :
    TypeName.runtimeChar character = character := by
  unfold TypeName.runtimeChar at neutral ⊢
  split
  · simp at neutral
  · simp at neutral
  · simp at neutral
  · rfl

/-- An attribute with a neutral name is known by it in metadata as well. -/
theorem TypeExpr.key_eq_iff (neutral : TypeName.IsNeutral name) :
    expr.key = name ↔ expr.text = name := by
  have written : expr.key.toList = expr.text.toList.map TypeName.runtimeChar := by
    rw [key, TypeName.toRuntime, String.toList_map]
  have same (runtime : TypeName.IsRuntime expr.text.toList) : expr.key = expr.text := by
    apply String.toList_injective
    rw [written, runtime.map_eq_self]
  constructor
  · rintro rfl
    refine (same ?_).symm
    intro character member
    apply TypeName.runtimeChar_eq_self
    apply neutral
    rw [written]
    exact List.mem_map_of_mem member
  · rintro rfl
    refine same ?_
    intro character member
    apply TypeName.runtimeChar_of_notMem
    have unmarked := neutral character member
    simp only [List.mem_cons, not_or] at unmarked ⊢
    simp [unmarked]

/-- The markers made from attributes, all of which count as inherited. -/
theorem any_marker (neutral : TypeName.IsNeutral marker) (attributes : List TypeExpr) :
    (attributes.map fun type => (⟨type.key, true⟩ : Marker)).any (·.name == marker) =
      attributes.any (·.text == marker) := by
  rw [List.any_map]
  congr 1
  funext type
  exact Bool.eq_iff_iff.mpr (by simpa using TypeExpr.key_eq_iff neutral)

theorem any_inherited (neutral : TypeName.IsNeutral marker) (attributes : List TypeExpr) :
    ((attributes.map fun type => (⟨type.key, true⟩ : Marker)).any fun applied =>
      applied.name == marker && applied.inherited) = attributes.any (·.text == marker) := by
  rw [← any_marker neutral, List.any_map, List.any_map]
  congr 1
  funext type
  exact Bool.and_true _

namespace Method

theorem carries_toMember (neutral : TypeName.IsNeutral marker) (method : Method) :
    method.toMember.carries marker = method.hasAttribute marker :=
  any_marker neutral method.attributes

theorem passesOn_toMember (neutral : TypeName.IsNeutral marker) (method : Method) :
    method.toMember.passesOn marker = method.hasAttribute marker :=
  any_inherited neutral method.attributes

end Method

namespace TypeDecl

variable {assembly : String} {base : Option Descriptor}

theorem carries_header (neutral : TypeName.IsNeutral marker) (decl : TypeDecl) :
    (Descriptor.declared (decl.header assembly) base).carries marker = decl.hasAttribute marker :=
  any_marker neutral decl.attributes

theorem passesOn_header (neutral : TypeName.IsNeutral marker) (decl : TypeDecl) :
    (Descriptor.declared (decl.header assembly) base).passesOn marker = decl.hasAttribute marker :=
  any_inherited neutral decl.attributes

/-- The attribute is on the member of the type that the method overrides just if it is on the
virtual method of the type with its signature. -/
theorem any_overridden?_header (neutral : TypeName.IsNeutral marker)
    (distinct : Method.AreDistinct decl.methods) :
    ((Descriptor.declared (decl.header assembly) base).overridden? method.toMember).any
        (·.passesOn marker) = true ↔
      ∃ other ∈ decl.methods, other.isVirtual = true ∧ other.SameSignature method ∧
        other.hasAttribute marker = true := by
  have overridden : (Descriptor.declared (decl.header assembly) base).overridden? method.toMember =
      (decl.methods.find? fun other =>
        other.isVirtual && other.toMember.sameSignature method.toMember).map Method.toMember :=
    List.find?_map ..
  rw [overridden, Option.any_map]
  constructor
  · intro passes
    obtain ⟨other, found, passes⟩ := (Option.any_eq_true ..).mp passes
    have accepted := List.find?_some found
    rw [Bool.and_eq_true, Method.sameSignature_toMember] at accepted
    rw [Method.passesOn_toMember neutral] at passes
    exact ⟨other, List.mem_of_find?_eq_some found, accepted.1, accepted.2, passes⟩
  · rintro ⟨other, member, isVirtual, same, bears⟩
    cases found : decl.methods.find? fun other =>
        other.isVirtual && other.toMember.sameSignature method.toMember with
    | none =>
        have refused := List.find?_eq_none.mp found other member
        rw [isVirtual, Method.sameSignature_toMember.mpr same] at refused
        exact absurd rfl refused
    | some first =>
        have accepted := List.find?_some found
        rw [Bool.and_eq_true, Method.sameSignature_toMember] at accepted
        have firstMember := List.mem_of_find?_eq_some found
        rw [distinct.eq firstMember member (accepted.2.trans same.symm)]
        rw [Option.any_some, Method.passesOn_toMember neutral]
        exact bears

end TypeDecl

/-! ## The rule -/

namespace Module

/-- The attribute is on the method or, if that is virtual, on a virtual method with its signature of
a type that the method's type derives from. -/
def MethodBears (module : Module) (decl : TypeDecl) (method : Method) (marker : String) : Prop :=
  method.hasAttribute marker = true ∨ method.isVirtual = true ∧
    ∃ ancestor, TransGen module.Extends decl ancestor ∧ ∃ other ∈ ancestor.methods,
      other.isVirtual = true ∧ other.SameSignature method ∧ other.hasAttribute marker = true

/-- The attribute is on the type or one that it derives from. -/
def TypeBears (module : Module) (decl : TypeDecl) (marker : String) : Prop :=
  ∃ ancestor, ReflTransGen module.Extends decl ancestor ∧ ancestor.hasAttribute marker = true

end Module

namespace Binder

/-- The attributes on a type and its bases are those on the type and the types it derives from. -/
theorem hasMarker_iff (made : ofModule env directories module world = (.ok binder, ended))
    (hierarchy : module.IsHierarchy) (distinguishes : binder.scope.Distinguishes module.types)
    (member : decl ∈ module.types)
    (described : binder.scope.own.get? decl.runtimeName = some type)
    (neutral : TypeName.IsNeutral marker) :
    type.hasMarker marker true = true ↔ module.TypeBears decl marker := by
  have inherited : (∃ base ∈ type.bases, base.passesOn marker = true) ↔
      ∃ ancestor, TransGen module.Extends decl ancestor ∧ ancestor.hasAttribute marker = true := by
    apply exists_mem_bases_iff made hierarchy distinguishes member described
    intro ancestor _ found
    rw [ancestor.passesOn_header neutral]
  obtain ⟨found, same, _⟩ := exists_described made hierarchy distinguishes member
  rw [described] at same
  cases same
  rw [Descriptor.hasMarker, Bool.or_eq_true, Bool.true_and, List.any_eq_true, inherited,
    TypeDecl.carries_header neutral]
  constructor
  · rintro (here | ⟨ancestor, derives, bears⟩)
    · exact ⟨decl, .refl, here⟩
    · exact ⟨ancestor, derives.to_reflTransGen, bears⟩
  · rintro ⟨ancestor, reaches, bears⟩
    rcases Relation.reflTransGen_iff_eq_or_transGen.mp reaches with rfl | derives
    · exact .inl bears
    · exact .inr ⟨ancestor, derives, bears⟩

/-- The attributes on a member and those it overrides are those on the method and the virtual
methods with its signature further up. -/
theorem memberHasMarker_iff (made : ofModule env directories module world = (.ok binder, ended))
    (hierarchy : module.IsHierarchy) (distinguishes : binder.scope.Distinguishes module.types)
    (distinct : ∀ decl ∈ module.types, Method.AreDistinct decl.methods)
    (member : decl ∈ module.types)
    (described : binder.scope.own.get? decl.runtimeName = some type)
    (neutral : TypeName.IsNeutral marker) :
    type.memberHasMarker method.toMember marker true = true ↔
      module.MethodBears decl method marker := by
  have overridden : (∃ base ∈ type.bases,
        (base.overridden? method.toMember).any (·.passesOn marker) = true) ↔
      ∃ ancestor, TransGen module.Extends decl ancestor ∧ ∃ other ∈ ancestor.methods,
        other.isVirtual = true ∧ other.SameSignature method ∧ other.hasAttribute marker = true := by
    apply exists_mem_bases_iff made hierarchy distinguishes member described
    intro ancestor ancestorMember found
    exact TypeDecl.any_overridden?_header neutral (distinct ancestor ancestorMember)
  have passed : (type.bases.filterMap (·.overridden? method.toMember)).any (·.passesOn marker) =
      true ↔ ∃ base ∈ type.bases,
        (base.overridden? method.toMember).any (·.passesOn marker) = true := by
    simp only [List.any_eq_true, List.mem_filterMap, Option.any_eq_true]
    constructor
    · rintro ⟨other, ⟨base, baseMember, found⟩, passes⟩
      exact ⟨base, baseMember, other, found, passes⟩
    · rintro ⟨base, baseMember, other, found, passes⟩
      exact ⟨other, ⟨base, baseMember, found⟩, passes⟩
  rw [Descriptor.memberHasMarker, Bool.or_eq_true, Bool.true_and, Bool.and_eq_true, passed,
    overridden, Method.carries_toMember neutral]
  rfl

end Binder

namespace Concern

theorem isNeutral_enabling (concern : Concern) : TypeName.IsNeutral concern.enabling := by
  cases concern <;> decide +kernel

theorem isNeutral_disabling (concern : Concern) : TypeName.IsNeutral concern.disabling := by
  cases concern <;> decide +kernel

theorem decide_eq_true_iff {methodDisables methodEnables typeEnables : Bool} :
    decide methodDisables methodEnables typeEnables = true ↔
      ¬ methodDisables = true ∧ (methodEnables = true ∨ typeEnables = true) := by
  simp [decide]

theorem fst_isWanted (concern : Concern) (method : Method) (decl : TypeDecl) (binder : Binder) :
    (concern.isWanted method decl binder).1 = match (binder.resolveMethod method decl).1 with
      | .ok (some (type, member)) => concern.appliesTo type member
      | .ok none | .error _ => concern.appliesDirectly method decl := by
  rw [isWanted]
  obtain ⟨error | _ | ⟨type, member⟩, after⟩ := binder.resolveMethod method decl <;> rfl

/-- In a hierarchy, whether a method wants a concern is a rule on the attributes of the module. If
the types of its parameters resolve in turn, the concern must not be forbidden on the method or one
that it overrides, and it must be asked for there, or on the type or one that it derives from. If
they do not resolve, only the attributes on the method and the type themselves count. -/
theorem isWanted_iff (made : Binder.ofModule env directories module world = (.ok binder, ended))
    (truthful : binder.scope.IsTruthful) (hierarchy : module.IsHierarchy)
    (distinguishes : binder.scope.Distinguishes module.types)
    (distinct : ∀ decl ∈ module.types, Method.AreDistinct decl.methods)
    (member : decl ∈ module.types) (methodMember : method ∈ decl.methods) (concern : Concern)
    (calls : List Binder.Call) :
    let state := binder.performAll calls
    let parameters := method.parameters.map (·.type)
    ((∀ parameter ∈ parameters, TypeName.IsBlankFree parameter.key.toList) →
      (∃ names, (state.requireNames parameters).1 = .ok names) →
        ((concern.isWanted method decl state).1 = true ↔
          ¬ module.MethodBears decl method concern.disabling ∧
            (module.MethodBears decl method concern.enabling ∨
              module.TypeBears decl concern.enabling))) ∧
    ((¬ ∃ names, (state.requireNames parameters).1 = .ok names) →
      ((concern.isWanted method decl state).1 = true ↔
        ¬ method.hasAttribute concern.disabling = true ∧
          (method.hasAttribute concern.enabling = true ∨
            decl.hasAttribute concern.enabling = true))) := by
  intro state parameters
  obtain ⟨type, described, matched, resolved⟩ := Binder.exists_resolveMethod made truthful hierarchy
    distinguishes (distinct decl member) member methodMember calls
  rw [fst_isWanted, resolved]
  constructor
  · rintro blankFree ⟨names, required⟩
    have held := (Binder.holds_of_ofModule made truthful distinguishes calls).2
    have upholds : state.scope.Upholds GoesBy := by
      rw [Binder.scope_performAll]
      exact truthful.upholds
    have keys : names = method.parameters.map (·.type.key) := by
      rw [Binder.eq_keys_of_requireNames upholds held blankFree required, List.map_map]
      rfl
    rw [← keys] at matched
    rw [required]
    simp only [Except.map, matched, Option.map_some]
    rw [appliesTo, decide_eq_true_iff,
      Binder.memberHasMarker_iff made hierarchy distinguishes distinct member described
        concern.isNeutral_disabling,
      Binder.memberHasMarker_iff made hierarchy distinguishes distinct member described
        concern.isNeutral_enabling,
      Binder.hasMarker_iff made hierarchy distinguishes member described
        concern.isNeutral_enabling]
  · intro unresolved
    cases required : (state.requireNames parameters).1 with
    | ok names => exact absurd ⟨names, required⟩ unresolved
    | error error =>
        rw [appliesDirectly]
        simp only [Except.map]
        exact decide_eq_true_iff

end Concern

namespace Sample

def go : Method :=
  { name := "Go", isVirtual := true, parameters := [⟨"other", .named "App.Root"⟩] }

/-- A method that overrides one that forbids logging. -/
def quiet : Method :=
  { name := "Quiet", isVirtual := true }

/-- A method with a parameter of a type that exists nowhere. -/
def lost : Method :=
  { name := "Lost", isVirtual := true, parameters := [⟨"other", .named "App.Nowhere"⟩] }

def root : TypeDecl :=
  { space := "App", name := "Root", attributes := [.named Concern.logging.enabling],
    methods := [{ quiet with attributes := [.named Concern.logging.disabling] }] }

def heir : TypeDecl :=
  { space := "App", name := "Heir", base := some (.named "App.Root"),
    methods := [go, quiet, lost] }

/-- A type that derives from one that asks for logging. -/
def marked : List TypeDecl := [heir, root]

theorem extends_marked : (app marked).Extends heir root :=
  ⟨by decide +kernel, by decide +kernel, _, rfl, by decide +kernel⟩

theorem isHierarchy_marked : (app marked).IsHierarchy where
  plain := by decide +kernel
  bases := by
    have named : ∀ decl ∈ marked, decl.base = none ∨
        ∃ other ∈ marked, ∃ base ∈ decl.base, base.key = other.runtimeName := by decide +kernel
    intro decl member
    refine (named decl member).imp_right ?_
    rintro ⟨other, otherMember, base, hasBase, names⟩
    exact ⟨other, member, otherMember, base, hasBase, names⟩
  acyclic := by
    have bare : ∀ decl ∈ marked, ∀ other ∈ marked, ∀ base ∈ decl.base,
        base.key = other.runtimeName → other.base = none := by decide +kernel
    intro decl cycle
    obtain ⟨_, ⟨_, _, base, hasBase, _⟩, _⟩ := TransGen.head'_iff.mp cycle
    obtain ⟨last, _, lastMember, member, lastBase, lastHas, names⟩ := TransGen.tail'_iff.mp cycle
    rw [bare last lastMember decl member lastBase lastHas names] at hasBase
    cases hasBase

end Sample

namespace Concern

/-- A type passes on what it asks for, except to a method that overrides one that forbids it, and to
a method that does not resolve. -/
theorem isWanted_iff_marked :
    ∃ binder, Binder.ofModule (Sample.library "Lib") [] (Sample.app Sample.marked) () =
        (.ok binder, ()) ∧
      (logging.isWanted Sample.go Sample.heir binder).1 = true ∧
      (logging.isWanted Sample.quiet Sample.heir binder).1 = false ∧
      (logging.isWanted Sample.lost Sample.heir binder).1 = false := by
  have succeeds :
      (Binder.ofModule (Sample.library "Lib") [] (Sample.app Sample.marked) ()).1.toOption.any
        (fun binder => (binder.requireNames [.named "App.Root"]).1.toOption.any (fun _ => true) &&
          (binder.requireNames [.named "App.Nowhere"]).1.toOption.isNone) = true := by
    decide +kernel
  obtain ⟨binder, made, both⟩ := exists_eq_ok_of_any succeeds
  rw [Bool.and_eq_true] at both
  obtain ⟨names, required, _⟩ := exists_eq_ok_of_any both.1
  have missing : ¬ ∃ names, (binder.requireNames [.named "App.Nowhere"]).1 = .ok names := by
    rintro ⟨names, required⟩
    have nothing := both.2
    rw [required] at nothing
    cases nothing
  have made : Binder.ofModule (Sample.library "Lib") [] (Sample.app Sample.marked) () =
      (.ok binder, ()) := Prod.ext made rfl
  obtain ⟨truthful, distinguishes⟩ := Sample.scope_app made (by decide +kernel)
  have distinct : ∀ decl ∈ Sample.marked, Method.AreDistinct decl.methods := by decide +kernel
  have member : Sample.heir ∈ Sample.marked := by decide +kernel
  have unforbidden : ∀ decl ∈ Sample.marked, ∀ other ∈ decl.methods,
      other.SameSignature Sample.go → ¬ other.hasAttribute logging.disabling = true := by
    decide +kernel
  have goes := (isWanted_iff made truthful Sample.isHierarchy_marked distinguishes distinct member
    (show Sample.go ∈ _ by decide +kernel) logging []).1 (by decide +kernel) ⟨names, required⟩
  have stays := (isWanted_iff made truthful Sample.isHierarchy_marked distinguishes distinct member
    (show Sample.quiet ∈ _ by decide +kernel) logging []).1 (by decide +kernel) ⟨[], rfl⟩
  have loses := (isWanted_iff made truthful Sample.isHierarchy_marked distinguishes distinct member
    (show Sample.lost ∈ _ by decide +kernel) logging []).2 missing
  refine ⟨binder, made, goes.mpr ⟨?_, .inr ?_⟩, Bool.eq_false_iff.mpr ?_, Bool.eq_false_iff.mpr ?_⟩
  · rintro (own | ⟨_, ancestor, derives, other, otherMember, _, same, bears⟩)
    · exact absurd own (by decide +kernel)
    · exact unforbidden ancestor (Module.mem_of_derives derives) other otherMember same bears
  · exact ⟨Sample.root, .single Sample.extends_marked, by decide +kernel⟩
  · intro wanted
    apply (stays.mp wanted).1
    exact .inr ⟨rfl, Sample.root, .single Sample.extends_marked, _, List.mem_cons_self, rfl,
      ⟨rfl, rfl, rfl⟩, by decide +kernel⟩
  · intro wanted
    have asks := (loses.mp wanted).2
    revert asks
    decide +kernel

end Concern

end Splice
