import Splice.Binding.Scope
import Splice.Proofs.Types.Dialects

/-!
# Reading back

An expression is known by its key alone, so the cache can only be right about expressions whose key
comes down to what they come down to themselves. A bare name always does. An application does if its
key is read as an application of the same definition to the same arguments.

What is read from a bare name may be written another way than in that name, as blanks around
arguments are dropped. Once written again it is read the same.
-/

namespace Splice

variable {name element modifier : List Char} {arguments : List (List Char)}
variable {exprs : List TypeExpr} {expr : TypeExpr}

namespace TypeExpr

/-- The expression's key comes down to what the expression comes down to. -/
inductive ReadsBack : TypeExpr → Prop where
  | named (name : String) : ReadsBack (.named name)
  | applied {element definition : TypeExpr} {arguments others : List TypeExpr} :
      shapeOfName (applied element arguments).key = .application definition others →
      definition.key = element.key → others.map key = arguments.map key →
      ReadsBack element → (∀ argument ∈ arguments, ReadsBack argument) →
      ReadsBack (.applied element arguments)

theorem toList_key_named (name : String) :
    (named name).key.toList = name.toList.map TypeName.runtimeChar := by
  simp [key, text, TypeName.toRuntime]

theorem toList_key_applied :
    (applied expr exprs).key.toList =
      expr.key.toList ++ '[' :: [','].intercalate (exprs.map (·.key.toList)) ++ [']'] :=
  toList_toRuntime_applied

end TypeExpr

namespace TypeName

/-- No character of the name belongs to the metadata dialect. -/
def IsRuntime (name : List Char) : Prop :=
  ∀ character ∈ name, runtimeChar character = character

instance : DecidablePred IsRuntime :=
  List.decidableBAll fun character => runtimeChar character = character

/-- The name as it is written again once it has been read. -/
def normal (name : List Char) : List Char :=
  (read id name).key.toList

theorem runtimeChar_runtimeChar (character : Char) :
    runtimeChar (runtimeChar character) = runtimeChar character := by
  have cases : runtimeChar character = character ∨ character = '<' ∨ character = '>' ∨
      character = '/' := by
    simp only [runtimeChar]
    split <;> simp
  rcases cases with same | rfl | rfl | rfl
  · rw [same, same]
  all_goals rfl

namespace IsRuntime

theorem of_key (expr : TypeExpr) : IsRuntime expr.key.toList := by
  intro character member
  rw [TypeExpr.key, toRuntime, String.toList_map, List.mem_map] at member
  obtain ⟨original, _, rfl⟩ := member
  exact runtimeChar_runtimeChar original

theorem map_eq_self (runtime : IsRuntime name) : name.map runtimeChar = name :=
  (List.map_congr_left runtime).trans (List.map_id name)

theorem of_modifier (runtime : IsRuntime name)
    (split : splitModifier name = some (element, modifier)) : IsRuntime element :=
  IsRestored.of_modifier runtime split

theorem of_application (runtime : IsRuntime name)
    (split : splitApplication name = some (element, arguments)) :
    IsRuntime element ∧ ∀ argument ∈ arguments, IsRuntime argument :=
  IsRestored.of_application runtime split

end IsRuntime

theorem normal_of_leaf (runtime : IsRuntime name) (unmodified : splitModifier name = none)
    (unapplied : splitApplication name = none) : normal name = name := by
  rw [normal, read_of_leaf unmodified unapplied, TypeExpr.toList_key_named, String.toList_ofList,
    List.map_id, runtime.map_eq_self]

theorem normal_of_modifier (split : splitModifier name = some (element, modifier)) :
    normal name = normal element ++ modifier := by
  have isModifier := (splitModifier_eq_some_iff.mp split).2.2
  rw [normal, read_of_modifier split, TypeExpr.toList_key_named, String.toList_append,
    List.map_append, String.toList_ofList, isModifier.map_runtimeChar]
  simp [normal, TypeExpr.key, toRuntime]

theorem normal_of_application (runtime : IsRuntime name) (unmodified : splitModifier name = none)
    (split : splitApplication name = some (element, arguments)) :
    normal name = element ++ '[' :: [','].intercalate (arguments.map normal) ++ [']'] := by
  have elementRuntime := (runtime.of_application split).1
  rw [normal, read_of_application unmodified split, TypeExpr.toList_key_applied,
    TypeExpr.toList_key_named, String.toList_ofList, List.map_id, elementRuntime.map_eq_self,
    List.map_map]
  rfl

/-! ## Writing again -/

theorem head?_normal (runtime : IsRuntime name) : (normal name).head? = name.head? := by
  induction name using read.induct with
  | case1 name element modifier split ih =>
      have same := (splitModifier_eq_some_iff.mp split).1
      rw [normal_of_modifier split, same, List.head?_append, List.head?_append,
        ih (runtime.of_modifier split)]
  | case2 name unmodified element arguments split =>
      obtain ⟨_, _, inside, pieces, same, _⟩ := splitApplication_eq_some_iff.mp split
      rw [normal_of_application runtime unmodified split, same]
      simp [List.head?_append]
  | case3 name unmodified unapplied => rw [normal_of_leaf runtime unmodified unapplied]

theorem getLast?_normal (runtime : IsRuntime name) : (normal name).getLast? = name.getLast? := by
  induction name using read.induct with
  | case1 name element modifier split ih =>
      have same := (splitModifier_eq_some_iff.mp split).1
      rw [normal_of_modifier split, same, List.getLast?_append, List.getLast?_append,
        ih (runtime.of_modifier split)]
  | case2 name unmodified element arguments split =>
      obtain ⟨_, _, inside, pieces, same, _⟩ := splitApplication_eq_some_iff.mp split
      rw [normal_of_application runtime unmodified split, same, List.getLast?_concat,
        List.getLast?_concat]
  | case3 name unmodified unapplied => rw [normal_of_leaf runtime unmodified unapplied]

theorem normal_ne_nil (runtime : IsRuntime name) (full : name ≠ []) : normal name ≠ [] := by
  intro empty
  have first := head?_normal runtime
  rw [empty] at first
  exact full (List.head?_eq_none_iff.mp first.symm)

theorem isTrimmed_normal (runtime : IsRuntime name) (trimmed : IsTrimmed name) :
    IsTrimmed (normal name) := by
  constructor
  · rw [head?_normal runtime]
    exact trimmed.first
  · rw [getLast?_normal runtime]
    exact trimmed.last

theorem isPiece_normal (runtime : IsRuntime name) (piece : IsPiece name) :
    IsPiece (normal name) := by
  induction name using read.induct with
  | case1 name element modifier split ih =>
      obtain ⟨same, _, isModifier⟩ := splitModifier_eq_some_iff.mp split
      have elementPiece : IsPiece element := by
        apply Splits.of_append (fun _ => isModifier.closes)
        rw [← same]
        exact piece
      rw [normal_of_modifier split]
      exact Splits.append (ih (runtime.of_modifier split) elementPiece) isModifier.isPiece
  | case2 name unmodified element arguments split ih =>
      obtain ⟨unopened, _, inside, pieces, same, _⟩ := splitApplication_eq_some_iff.mp split
      obtain ⟨nonempty, each⟩ := arguments_of_splitApplication split
      have argumentRuntime := (runtime.of_application split).2
      have elementPiece : IsPiece element := by
        rw [same, List.append_assoc] at piece
        exact Splits.in_front piece unopened
      rw [normal_of_application runtime unmodified split]
      apply elementPiece.bracketed (by simpa using nonempty)
      intro argument member
      obtain ⟨original, originalMember, rfl⟩ := List.mem_map.mp member
      exact ih ⟨original, originalMember⟩ (argumentRuntime original originalMember)
        (each original originalMember).1
  | case3 name unmodified unapplied =>
      rw [normal_of_leaf runtime unmodified unapplied]
      exact piece

/-- What is written again keeps its definition and has its arguments written again. -/
theorem split_normal (runtime : IsRuntime name) (unmodified : splitModifier name = none)
    (split : splitApplication name = some (element, arguments)) :
    splitModifier (normal name) = none ∧
      splitApplication (normal name) = some (element, arguments.map normal) := by
  obtain ⟨unopened, marked, _⟩ := splitApplication_eq_some_iff.mp split
  obtain ⟨nonempty, each⟩ := arguments_of_splitApplication split
  have argumentRuntime := (runtime.of_application split).2
  have written : ∀ argument ∈ arguments.map normal,
      IsPiece argument ∧ IsTrimmed argument ∧ argument ≠ [] := by
    intro argument member
    obtain ⟨original, originalMember, rfl⟩ := List.mem_map.mp member
    obtain ⟨piece, trimmed, full⟩ := each original originalMember
    have originalRuntime := argumentRuntime original originalMember
    exact ⟨isPiece_normal originalRuntime piece, isTrimmed_normal originalRuntime trimmed,
      normal_ne_nil originalRuntime full⟩
  rw [normal_of_application runtime unmodified split]
  exact split_bracketed unopened marked (by simpa using nonempty) written

theorem normal_normal (runtime : IsRuntime name) : normal (normal name) = normal name := by
  induction name using read.induct with
  | case1 name element modifier split ih =>
      obtain ⟨_, full, isModifier⟩ := splitModifier_eq_some_iff.mp split
      have elementRuntime := runtime.of_modifier split
      rw [normal_of_modifier split]
      have again := splitModifier_append isModifier (normal_ne_nil elementRuntime full)
      rw [normal_of_modifier again, ih elementRuntime]
  | case2 name unmodified element arguments split ih =>
      obtain ⟨unmodifiedAgain, splitAgain⟩ := split_normal runtime unmodified split
      have argumentRuntime := (runtime.of_application split).2
      have runtimeAgain : IsRuntime (normal name) := .of_key _
      rw [normal_of_application runtimeAgain unmodifiedAgain splitAgain,
        normal_of_application runtime unmodified split, List.map_map]
      congr 4
      apply List.map_congr_left
      intro argument member
      exact ih ⟨argument, member⟩ (argumentRuntime argument member)
  | case3 name unmodified unapplied =>
      rw [normal_of_leaf runtime unmodified unapplied, normal_of_leaf runtime unmodified unapplied]

/-- A tight name is written again as it was. -/
theorem normal_eq_self (runtime : IsRuntime name) (tight : IsTight name) : normal name = name :=
  toList_toRuntime_read runtime tight

end TypeName

namespace TypeExpr

variable {definition : TypeExpr} {others : List TypeExpr}

/-! ## What reads back -/

theorem shapeOfName_of_application {name : String}
    (unmodified : TypeName.splitModifier name.toList = none)
    (split : TypeName.splitApplication name.toList = some (element, arguments)) :
    shapeOfName name =
      .application (.named (String.ofList element)) (arguments.map (TypeName.read id)) := by
  rw [shapeOfName, unmodified, TypeName.read_of_application unmodified split, List.map_id]

/-- A bare name that comes down to an application is split into its parts. -/
theorem split_of_shapeOfName {name : String}
    (shape : shapeOfName name = .application definition others) :
    TypeName.splitModifier name.toList = none ∧ ∃ element arguments,
      TypeName.splitApplication name.toList = some (element, arguments) ∧
        definition = .named (String.ofList element) ∧
        others = arguments.map (TypeName.read id) := by
  cases modified : TypeName.splitModifier name.toList with
  | some parts =>
      rw [shapeOfName, modified] at shape
      cases shape
  | none =>
      refine ⟨rfl, ?_⟩
      cases applied : TypeName.splitApplication name.toList with
      | none =>
          rw [shapeOfName, modified, TypeName.read_of_leaf modified applied] at shape
          cases shape
      | some parts =>
          obtain ⟨element, arguments⟩ := parts
          rw [shapeOfName_of_application modified applied] at shape
          cases shape
          exact ⟨element, arguments, rfl, rfl, rfl⟩

/-- What is read from a run-time name reads back. -/
theorem readsBack_read (runtime : TypeName.IsRuntime name) :
    (TypeName.read id name).ReadsBack := by
  induction name using TypeName.read.induct with
  | case1 name element modifier split =>
      rw [TypeName.read_of_modifier split]
      exact .named _
  | case2 name unmodified element arguments split ih =>
      have argumentRuntime := (runtime.of_application split).2
      have read : TypeName.read id name = _ := TypeName.read_of_application unmodified split
      obtain ⟨unmodifiedAgain, splitAgain⟩ := TypeName.split_normal runtime unmodified split
      rw [TypeName.normal, read] at unmodifiedAgain splitAgain
      rw [read]
      apply ReadsBack.applied (shapeOfName_of_application unmodifiedAgain splitAgain)
      · rw [List.map_id]
      · rw [List.map_map, List.map_map, List.map_map]
        apply List.map_congr_left
        intro argument member
        apply String.toList_injective
        exact TypeName.normal_normal (argumentRuntime argument member)
      · exact .named _
      · intro argument member
        obtain ⟨original, originalMember, rfl⟩ := List.mem_map.mp member
        exact ih ⟨original, originalMember⟩ (argumentRuntime original originalMember)
  | case3 name unmodified unapplied =>
      rw [TypeName.read_of_leaf unmodified unapplied]
      exact .named _

namespace ReadsBack

theorem application {element : TypeExpr} {arguments : List TypeExpr} (reads : expr.ReadsBack)
    (shape : expr.shape = .application element arguments) :
    element.ReadsBack ∧ (∀ argument ∈ arguments, argument.ReadsBack) ∧
      ∃ definition others, shapeOfName expr.key = .application definition others ∧
        definition.key = element.key ∧ others.map key = arguments.map key := by
  cases reads with
  | named name =>
      have runtime := TypeName.IsRuntime.of_key (.named name)
      obtain ⟨_, _, parts, split, rfl, rfl⟩ := split_of_shapeOfName shape
      refine ⟨.named _, ?_, _, _, shape, rfl, rfl⟩
      intro argument member
      obtain ⟨original, originalMember, rfl⟩ := List.mem_map.mp member
      exact readsBack_read ((runtime.of_application split).2 original originalMember)
  | applied found definitionKey othersKeys elementReads argumentsRead =>
      cases shape
      exact ⟨elementReads, argumentsRead, _, _, found, definitionKey, othersKeys⟩

theorem modification {element modifier : String} (reads : expr.ReadsBack)
    (shape : expr.shape = .modification element modifier) :
    shapeOfName expr.key = .modification element modifier := by
  cases reads with
  | named => exact shape
  | applied => cases shape

theorem plain (reads : expr.ReadsBack) (shape : expr.shape = .plain) :
    shapeOfName expr.key = .plain := by
  cases reads with
  | named => exact shape
  | applied => cases shape

end ReadsBack

end TypeExpr

end Splice
