import Splice.Proofs.Types.Splitting

/-!
# Dialects

A run-time name is read part by part: the element in front of its last modifier, or its arguments.
Whatever is not split further has its characters renamed. If writing takes the renaming back, and
no blank is trimmed, the name is written as it was read, however its brackets stand.
-/

namespace Splice

variable {name element modifier part : List Char} {arguments : List (List Char)}
variable {rename : Char → Char} {expr : TypeExpr} {exprs : List TypeExpr}

/-! ## Writing -/

namespace TypeExpr

theorem toList_text_applied :
    (applied expr exprs).text.toList =
      expr.text.toList ++ '<' :: [','].intercalate (exprs.map (·.text.toList)) ++ ['>'] := by
  simp [text, String.toList_intercalate, Function.comp_def]

/-- An application in the run-time dialect is made of its parts in that dialect. -/
theorem toList_toRuntime_applied :
    (TypeName.toRuntime (applied expr exprs).text).toList =
      (TypeName.toRuntime expr.text).toList ++
        '[' :: [','].intercalate (exprs.map fun expr => (TypeName.toRuntime expr.text).toList) ++
        [']'] := by
  have written : (exprs.map (·.text.toList)).map (·.map TypeName.runtimeChar) =
      exprs.map fun expr => (TypeName.toRuntime expr.text).toList := by
    simp [TypeName.toRuntime]
  rw [TypeName.toRuntime, String.toList_map, toList_text_applied, List.map_append,
    List.map_append, List.map_cons, TypeName.map_intercalate, written, TypeName.toRuntime,
    String.toList_map]
  rfl

end TypeExpr

namespace TypeName

theorem runtimeChar_of_notMem {character : Char} (unmarked : character ∉ ['<', '>', '/']) :
    runtimeChar character = character := by
  unfold runtimeChar
  split
  · simp at unmarked
  · simp at unmarked
  · simp at unmarked
  · rfl

theorem runtimeChar_metadataChar {character : Char} (runtime : runtimeChar character = character) :
    runtimeChar (metadataChar character) = character := by
  unfold metadataChar
  split
  · rfl
  · rfl
  · rfl
  · exact runtime

/-- Writing takes back what is renamed in the text. -/
def IsRestored (rename : Char → Char) (text : List Char) : Prop :=
  ∀ character ∈ text, runtimeChar (rename character) = character

namespace IsRestored

theorem map_map (restored : IsRestored rename name) :
    (name.map rename).map runtimeChar = name := by
  rw [List.map_map]
  exact (List.map_congr_left restored).trans (List.map_id name)

theorem of_modifier (restored : IsRestored rename name)
    (split : splitModifier name = some (element, modifier)) : IsRestored rename element := by
  have whole := (splitModifier_eq_some_iff.mp split).1
  intro character member
  apply restored
  rw [whole]
  exact List.mem_append_left modifier member

theorem of_application (restored : IsRestored rename name)
    (split : splitApplication name = some (element, arguments)) :
    IsRestored rename element ∧ ∀ argument ∈ arguments, IsRestored rename argument := by
  obtain ⟨_, _, inside, pieces, rfl, splits, rfl, _⟩ := splitApplication_eq_some_iff.mp split
  constructor
  · intro character member
    exact restored character (by simp [member])
  · intro argument argumentMember character member
    obtain ⟨piece, pieceMember, rfl⟩ := List.mem_map.mp argumentMember
    have inPiece : character ∈ piece := (trim_sublist piece).subset member
    have inInside := splits.mem_of_mem pieceMember inPiece
    exact restored character (by simp [inInside])

end IsRestored

/-! ## Reading -/

/-- The part is read on its own when the name is read. -/
inductive IsPart : List Char → List Char → Prop where
  | element {name element modifier : List Char} :
      splitModifier name = some (element, modifier) → IsPart element name
  | argument {name element argument : List Char} {arguments : List (List Char)} :
      splitModifier name = none → splitApplication name = some (element, arguments) →
      argument ∈ arguments → IsPart argument name

theorem IsPart.length_lt (isPart : IsPart part name) : part.length < name.length := by
  cases isPart with
  | element split => exact splitModifier_length split
  | argument _ split member => exact splitApplication_length split part member

/-- Going from part to part comes to an end. -/
theorem wellFounded_isPart : WellFounded IsPart :=
  Subrelation.wf IsPart.length_lt (measure List.length).wf

/-- A tight name is written as it was read by any renaming that writing takes back. -/
theorem toList_toRuntime_read (restored : IsRestored rename name) (tight : IsTight name) :
    (toRuntime (read rename name).text).toList = name := by
  induction name using read.induct with
  | case1 name element modifier split ih =>
      obtain ⟨whole, _, isModifier⟩ := splitModifier_eq_some_iff.mp split
      have elementTight : IsTight element := by
        rw [whole] at tight
        exact tight.left_of_append
      have elementWritten := ih (restored.of_modifier split) elementTight
      rw [toRuntime, String.toList_map] at elementWritten
      rw [read_of_modifier split, toRuntime, String.toList_map, TypeExpr.text_named,
        String.toList_append, List.map_append, String.toList_ofList, isModifier.map_runtimeChar,
        elementWritten, whole]
  | case2 name unmodified element arguments split ih =>
      obtain ⟨whole, argumentTight⟩ := tight.of_application split
      obtain ⟨elementRestored, argumentRestored⟩ := restored.of_application split
      have elementWritten :
          (toRuntime (TypeExpr.named (String.ofList (element.map rename))).text).toList =
            element := by
        rw [toRuntime, String.toList_map, TypeExpr.text_named, String.toList_ofList,
          elementRestored.map_map]
      have argumentsWritten : (arguments.map (read rename)).map
          (fun argument => (toRuntime argument.text).toList) = arguments := by
        rw [List.map_map]
        exact (List.map_congr_left fun argument member => ih ⟨argument, member⟩
          (argumentRestored argument member) (argumentTight argument member)).trans
          (List.map_id arguments)
      rw [read_of_application unmodified split, TypeExpr.toList_toRuntime_applied, elementWritten,
        argumentsWritten]
      exact whole.symm
  | case3 name unmodified unapplied =>
      rw [read_of_leaf unmodified unapplied, toRuntime, String.toList_map, TypeExpr.text_named,
        String.toList_ofList, restored.map_map]

/-- A run-time name without blanks, well-formed or not, is read into metadata form from ever smaller
parts, and is itself again when it is written in the run-time dialect. -/
theorem toRuntime_toExpr {name : String} (blankFree : IsBlankFree name.toList)
    (unmarked : '<' ∉ name.toList ∧ '>' ∉ name.toList ∧ '/' ∉ name.toList) :
    toRuntime (toExpr name).text = name ∧ Acc IsPart name.toList := by
  have restored : IsRestored metadataChar name.toList := by
    intro character member
    apply runtimeChar_metadataChar
    apply runtimeChar_of_notMem
    intro mark
    simp only [List.mem_cons, List.not_mem_nil, or_false] at mark
    rcases mark with same | same | same <;> subst same
    · exact unmarked.1 member
    · exact unmarked.2.1 member
    · exact unmarked.2.2 member
  constructor
  · apply String.toList_injective
    exact toList_toRuntime_read restored blankFree.isTight
  · exact wellFounded_isPart.apply name.toList

/-- An empty argument leaves the brackets in front of a modifier unsplit. -/
theorem toRuntime_toExpr_empty_argument :
    toRuntime (toExpr "Outer+Pair`2[List`1[A],,B[]*]&").text = "Outer+Pair`2[List`1[A],,B[]*]&" ∧
      Acc IsPart "Outer+Pair`2[List`1[A],,B[]*]&".toList :=
  toRuntime_toExpr (by decide) (by decide)

end TypeName

end Splice
