import Splice.Types.TypeExpr
import Splice.Text.Blank

/-!
# Reading type names

Type names are written in two dialects. Metadata writes nesting with a slash and arguments in angle
brackets; at run time nesting is a plus sign and arguments stand in square brackets. This module
converts between the two, and reads a run-time name back into a type expression.

A run-time name is peeled from the right: first its modifiers (`&`, `*`, `[]`, `[,]`), then its
bracketed arguments.
-/

namespace Splice.TypeName

/-- The run-time character for a metadata character. -/
def runtimeChar : Char → Char
  | '<' => '['
  | '>' => ']'
  | '/' => '+'
  | character => character

/-- The metadata character for a run-time character. -/
def metadataChar : Char → Char
  | '[' => '<'
  | ']' => '>'
  | '+' => '/'
  | character => character

/-- A name in the run-time dialect. -/
def toRuntime (name : String) : String :=
  name.map runtimeChar

/-- A name in the metadata dialect. -/
def toMetadata (name : String) : String :=
  name.map metadataChar

/-- Split off the last modifier of a name, if something is left in front of it. -/
def splitModifier (name : List Char) : Option (List Char × List Char) :=
  match name.reverse with
  | '&' :: element => if element.isEmpty then none else some (element.reverse, ['&'])
  | '*' :: element => if element.isEmpty then none else some (element.reverse, ['*'])
  | ']' :: rest =>
    match rest.dropWhile (· == ',') with
    | '[' :: element =>
      if element.isEmpty then none
      else some (element.reverse, '[' :: rest.takeWhile (· == ',') ++ [']'])
    | _ => none
  | _ => none

/-- Put a character in front of the first piece. -/
def extendFirst (character : Char) : List (List Char) → List (List Char)
  | [] => [[character]]
  | piece :: rest => (character :: piece) :: rest

/-- The pieces between commas that stand outside all brackets, or nothing if the brackets do not
balance. -/
def pieces : (depth : Nat) → List Char → Option (List (List Char))
  | depth, [] => if depth = 0 then some [[]] else none
  | depth, character :: rest =>
    if character = '[' then (pieces (depth + 1) rest).map (extendFirst '[')
    else if character = ']' then
      if depth = 0 then none else (pieces (depth - 1) rest).map (extendFirst ']')
    else if character = ',' ∧ depth = 0 then (pieces 0 rest).map ([] :: ·)
    else (pieces depth rest).map (extendFirst character)

/-- The character that stands before the arity in the name of a generic definition. -/
def arityMark : Char := '\x60'

/-- Split a name into a generic definition and its arguments. -/
def splitApplication (name : List Char) : Option (List Char × List (List Char)) :=
  let element := name.takeWhile (· != '[')
  match name.dropWhile (· != '[') with
  | '[' :: inner =>
    if arityMark ∈ element ∧ inner.getLast? = some ']' then
      match pieces 0 inner.dropLast with
      | some split =>
        let arguments := split.map Text.trim
        if arguments.any List.isEmpty then none else some (element, arguments)
      | none => none
    else none
  | _ => none

theorem splitModifier_length {name element modifier : List Char}
    (split : splitModifier name = some (element, modifier)) : element.length < name.length := by
  have total : name.length = name.reverse.length := by simp
  unfold splitModifier at split
  split at split
  · rename_i rest shape
    split at split
    · cases split
    · cases split
      rw [total, shape]
      simp
  · rename_i rest shape
    split at split
    · cases split
    · cases split
      rw [total, shape]
      simp
  · rename_i rest shape
    split at split
    · rename_i inner opened
      split at split
      · cases split
      · cases split
        have bound := Text.length_dropWhile_le (· == ',') rest
        rw [opened] at bound
        rw [total, shape]
        simp only [List.length_cons, List.length_reverse] at bound ⊢
        omega
    · cases split
  · cases split

theorem length_mem_extendFirst {character : Char} {split : List (List Char)} {bound : Nat}
    (short : ∀ piece ∈ split, piece.length ≤ bound) :
    ∀ piece ∈ extendFirst character split, piece.length ≤ bound + 1 := by
  cases split with
  | nil => simp [extendFirst]
  | cons head rest =>
    intro piece member
    simp only [extendFirst, List.mem_cons] at member
    rcases member with rfl | member
    · have := short head (by simp)
      simp only [List.length_cons]
      omega
    · have := short piece (by simp [member])
      omega

theorem pieces_length {depth : Nat} {text : List Char} {split : List (List Char)}
    (found : pieces depth text = some split) : ∀ piece ∈ split, piece.length ≤ text.length := by
  induction text generalizing depth split with
  | nil =>
    simp only [pieces] at found
    split at found <;> cases found
    simp
  | cons character rest ih =>
    have extended {depth : Nat} {start : Char}
        (found : (pieces depth rest).map (extendFirst start) = some split) :
        ∀ piece ∈ split, piece.length ≤ rest.length + 1 := by
      obtain ⟨inner, foundInner, rfl⟩ := Option.map_eq_some_iff.1 found
      exact length_mem_extendFirst (ih foundInner)
    simp only [pieces] at found
    split at found
    · exact extended found
    · split at found
      · split at found
        · cases found
        · exact extended found
      · split at found
        · obtain ⟨inner, foundInner, rfl⟩ := Option.map_eq_some_iff.1 found
          intro piece member
          rcases List.mem_cons.1 member with rfl | member
          · simp
          · exact Nat.le_succ_of_le (ih foundInner piece member)
        · exact extended found

theorem splitApplication_length {name element : List Char} {arguments : List (List Char)}
    (split : splitApplication name = some (element, arguments)) :
    ∀ argument ∈ arguments, argument.length < name.length := by
  unfold splitApplication at split
  simp only at split
  split at split
  · rename_i inner opened
    split at split
    · split at split
      · rename_i found foundPieces
        split at split
        · cases split
        · cases split
          intro argument member
          obtain ⟨piece, inPieces, rfl⟩ := List.mem_map.1 member
          have short := pieces_length foundPieces piece inPieces
          have trimmed := Text.length_trim_le piece
          have bound := Text.length_dropWhile_le (· != '[') name
          rw [opened] at bound
          simp only [List.length_cons, List.length_dropLast] at bound short
          omega
      · cases split
    · cases split
  · cases split

/-- Read a run-time name as a type expression, renaming the characters of every leaf name. -/
def read (rename : Char → Char) (name : List Char) : TypeExpr :=
  match _ : splitModifier name with
  | some (element, modifier) =>
    .named ((read rename element).text ++ String.ofList modifier)
  | none =>
    match _ : splitApplication name with
    | some (element, arguments) =>
      .applied (.named (String.ofList (element.map rename)))
        (arguments.attach.map fun argument => read rename argument.1)
    | none => .named (String.ofList (name.map rename))
termination_by name.length
decreasing_by
  · exact splitModifier_length ‹_›
  · exact splitApplication_length ‹_› argument.1 argument.2

/-- Read a run-time name into metadata form. -/
def toExpr (name : String) : TypeExpr :=
  read metadataChar name.toList

/-- The value of a decimal numeral. A plus sign may stand in front, and the value must fit in 64
bits. -/
def numeral? (digits : List Char) : Option Nat :=
  let bare := if digits.head? = some '+' then digits.tail else digits
  if bare ≠ [] ∧ bare.all (fun digit => '0' ≤ digit && digit ≤ '9') then
    let value := bare.foldl (fun total digit => total * 10 + (digit.toNat - '0'.toNat)) 0
    if value < UInt64.size then some value else none
  else none

/-- The number of type parameters that the name of a definition announces after its last arity
mark. -/
def arity (name : String) : Nat :=
  let reversed := name.toList.reverse
  match reversed.dropWhile (· != arityMark) with
  | [] => 0
  | _ :: _ => (numeral? (reversed.takeWhile (· != arityMark)).reverse).getD 0

end Splice.TypeName
