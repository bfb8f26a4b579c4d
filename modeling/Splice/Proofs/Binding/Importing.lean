import Splice.Proofs.Binding.Naming
import Splice.Proofs.Binding.Spelling

/-!
# Importing types

A module refers to a resolved type by an expression that follows the descriptor, but to the
parameters of its members by expressions that are read from names. Both agree: what is read from the
full name of a type is the expression for it, for every type that is put together from whole names
by closing definitions and by modifying elements.
-/

namespace Splice

variable {type : Descriptor}
variable {text : List Char} {rename : Char → Char}

namespace TypeName

/-- The name is neither empty nor does it come apart. -/
structure IsWhole (text : List Char) : Prop where
  full : text ≠ []
  unmarked : ∀ character ∈ text,
    character ∉ ['[', ']', ',', '&', '*'] ∧ Text.isBlank character = false

instance : DecidablePred IsWhole := fun text =>
  have : Decidable (∀ character ∈ text, character ∉ ['[', ']', ',', '&', '*'] ∧
      Text.isBlank character = false) := List.decidableBAll _ text
  decidable_of_iff (text ≠ [] ∧ ∀ character ∈ text,
      character ∉ ['[', ']', ',', '&', '*'] ∧ Text.isBlank character = false)
    ⟨fun ⟨full, unmarked⟩ => ⟨full, unmarked⟩, fun ⟨full, unmarked⟩ => ⟨full, unmarked⟩⟩

namespace IsWhole

theorem isWord (whole : IsWhole text) : IsWord text := by
  apply IsWord.of_unmarked whole.full
  intro character member
  obtain ⟨unmarked, unblank⟩ := whole.unmarked character member
  simp only [List.mem_cons, not_or] at unmarked ⊢
  exact ⟨by simp [unmarked], unblank⟩

theorem unopened (whole : IsWhole text) : '[' ∉ text := by
  intro member
  exact (whole.unmarked '[' member).1 List.mem_cons_self

theorem read (whole : IsWhole text) :
    read rename text = .named (String.ofList (text.map rename)) := by
  refine read_of_leaf (splitModifier_eq_none ?_) (splitApplication_eq_none whole.unopened)
  intro character member
  have unmarked := (whole.unmarked character member).1
  simp only [List.mem_cons, not_or] at unmarked ⊢
  simp [unmarked]

end IsWhole

end TypeName

namespace Descriptor

/-- The name of an application comes apart into its definition and its arguments. -/
theorem split_closed {definition : Descriptor} {arguments : List Descriptor}
    (whole : TypeName.IsWhole definition.fullName.toList)
    (announced : TypeName.arityMark ∈ definition.fullName.toList) (nonempty : arguments ≠ [])
    (words : ∀ argument ∈ arguments, TypeName.IsWord argument.fullName.toList) :
    TypeName.splitModifier (closed definition arguments).fullName.toList = none ∧
      TypeName.splitApplication (closed definition arguments).fullName.toList =
        some (definition.fullName.toList, arguments.map (·.fullName.toList)) := by
  rw [toList_fullName_closed]
  apply TypeName.split_bracketed whole.unopened announced (by simpa using nonempty)
  rw [List.forall_mem_map]
  intro argument member
  have word := words argument member
  exact ⟨word.piece, word.isTrimmed, word.full⟩

/-- The type is put together from types with whole names. A definition that is closed announces its
arity. -/
inductive IsComposed : Descriptor → Prop where
  | leaf {header : Header} (base : Option Descriptor) : TypeName.IsWhole header.fullName.toList →
      IsComposed (.declared header base)
  | closed {definition type : Descriptor} {arguments : List Descriptor} : IsComposed definition →
      TypeName.arityMark ∈ definition.fullName.toList →
      (∀ argument ∈ arguments, IsComposed argument) → definition.close arguments = .ok type →
      IsComposed type
  | modified {element : Descriptor} {modifier : String} (base : Option Descriptor) :
      IsComposed element → TypeName.IsModifier modifier.toList →
      IsComposed (.modified element modifier base)

namespace IsComposed

/-- Only a declared type takes arguments. -/
theorem whole_of_arity (composed : type.IsComposed) (generic : type.arity ≠ 0) :
    TypeName.IsWhole type.fullName.toList ∧
      type.toExpr = .named (TypeName.toMetadata type.fullName) := by
  cases composed with
  | leaf base whole => exact ⟨whole, rfl⟩
  | closed _ _ _ closes =>
      obtain ⟨rfl, _⟩ := closed_of_close closes
      exact absurd rfl generic
  | modified => exact absurd rfl generic

theorem isWord (composed : type.IsComposed) : TypeName.IsWord type.fullName.toList := by
  induction composed with
  | leaf base whole => exact whole.isWord
  | @closed definition type arguments _ _ _ closes definitionWord argumentWords =>
      obtain ⟨rfl, fits, generic⟩ := closed_of_close closes
      rw [toList_fullName_closed]
      refine definitionWord.bracketed ?_ (List.forall_mem_map.mpr argumentWords)
      rintro empty
      rw [List.map_eq_nil_iff] at empty
      subst empty
      exact generic fits.symm
  | modified base _ isModifier elementWord =>
      rw [fullName, String.toList_append]
      exact elementWord.append_modifier isModifier

/-- What is read from the full name of a type is the expression for it. -/
theorem read (composed : type.IsComposed) :
    TypeName.read TypeName.metadataChar type.fullName.toList = type.toExpr := by
  induction composed with
  | leaf base whole =>
      rw [fullName, whole.read, ← String.toList_map, String.ofList_toList]
      rfl
  | @closed definition type arguments isDefinition announced composed closes _ argumentsRead =>
      obtain ⟨rfl, fits, generic⟩ := closed_of_close closes
      obtain ⟨whole, definitionExpr⟩ := isDefinition.whole_of_arity generic
      have nonempty : arguments ≠ [] := by
        rintro rfl
        exact generic fits.symm
      obtain ⟨unmodified, split⟩ := split_closed whole announced nonempty
        fun argument member => (composed argument member).isWord
      rw [TypeName.read_of_application unmodified split, toExpr, definitionExpr, toExprs_eq_map,
        List.map_map, ← String.toList_map, String.ofList_toList]
      exact congrArg _ (List.map_congr_left argumentsRead)
  | @modified element modifier base isElement isModifier elementRead =>
      have split := TypeName.splitModifier_append isModifier isElement.isWord.full
      rw [fullName, String.toList_append, TypeName.read_of_modifier split, elementRead,
        String.ofList_toList, toExpr]

/-- The expression for a type is what is read from its full name. So an instruction that calls one
of its members refers to the types of the signature as it would refer to them as declaring types. -/
theorem toExpr_fullName (composed : type.IsComposed) :
    TypeName.toExpr type.fullName = type.toExpr ∧
      ∀ (member : Member) (parameters : List Descriptor) (returns : Descriptor),
        (∀ parameter ∈ parameters, parameter.IsComposed) → returns.IsComposed →
        member.parameters = parameters.map fullName → member.returns = returns.fullName →
        type.memberRef member =
          { declaring := TypeName.toExpr type.fullName
            name := member.name
            parameters := parameters.map toExpr
            returns := returns.toExpr
            hasThis := !member.isStatic } := by
  refine ⟨composed.read, ?_⟩
  intro member parameters returns eachComposed returnsComposed signature result
  have parametersRead : member.parameters.map TypeName.toExpr = parameters.map toExpr := by
    rw [signature, List.map_map]
    exact List.map_congr_left fun parameter listed => (eachComposed parameter listed).read
  have returnsRead : TypeName.toExpr member.returns = returns.toExpr := by
    rw [result]
    exact returnsComposed.read
  have declaringRead : TypeName.toExpr type.fullName = type.toExpr := composed.read
  rw [memberRef, parametersRead, returnsRead, declaringRead]

end IsComposed

end Descriptor

namespace Sample

def stringType : Descriptor := CoreLibrary.declare "System" "String" (some CoreLibrary.object)

def nullableType : Descriptor :=
  CoreLibrary.declare "System" "Nullable`1" (some CoreLibrary.valueType) [] 1

/-- An application to an array of another one. -/
def nestedType : Descriptor :=
  .closed nullableType [.modified (.closed nullableType [stringType]) "[,]" none]

end Sample

namespace Descriptor

theorem toExpr_fullName_nested :
    let clone : Member := .ofMethod "Clone" [Sample.stringType.fullName] Sample.nestedType.fullName
    Sample.nestedType.IsComposed ∧
      Sample.nestedType.fullName = "System.Nullable`1[System.Nullable`1[System.String][,]]" ∧
      TypeName.toExpr Sample.nestedType.fullName = Sample.nestedType.toExpr ∧
      Sample.nestedType.memberRef clone =
        { declaring := TypeName.toExpr Sample.nestedType.fullName
          name := "Clone"
          parameters := [Sample.stringType.toExpr]
          returns := Sample.nestedType.toExpr
          hasThis := true } := by
  intro clone
  have string : Sample.stringType.IsComposed := .leaf _ (by decide +kernel)
  have nullable : Sample.nullableType.IsComposed := .leaf _ (by decide +kernel)
  have announced : TypeName.arityMark ∈ Sample.nullableType.fullName.toList := by decide +kernel
  have inner : (closed Sample.nullableType [Sample.stringType]).IsComposed :=
    .closed nullable announced (List.forall_mem_singleton.mpr string) rfl
  have isModifier : TypeName.IsModifier "[,]".toList := .array 1
  have nested : Sample.nestedType.IsComposed :=
    .closed nullable announced (List.forall_mem_singleton.mpr (.modified _ inner isModifier)) rfl
  obtain ⟨read, imported⟩ := IsComposed.toExpr_fullName nested
  have signature : ∀ parameter ∈ [Sample.stringType], parameter.IsComposed :=
    List.forall_mem_singleton.mpr string
  exact ⟨nested, by decide +kernel, read, imported clone _ _ signature nested rfl rfl⟩

end Descriptor

end Splice
