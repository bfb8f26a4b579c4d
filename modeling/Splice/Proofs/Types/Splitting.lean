import Mathlib.Data.List.Chain
import Mathlib.Data.List.TakeWhile
import Splice.Types.TypeName

/-!
# Splitting names

How a run-time name comes apart: into a name and its last modifier, or into a generic definition and
its arguments. Splitting at commas is described by a relation that follows the text character by
character and keeps track of how many brackets are open.
-/

namespace Splice.TypeName

variable {depth inner : Nat} {text front back name element piece : List Char} {character : Char}
variable {modifier : List Char} {split others arguments : List (List Char)} {rename : Char → Char}

/-! ## Reading a name -/

theorem read_of_modifier (split : splitModifier name = some (element, modifier)) :
    read rename name = .named ((read rename element).text ++ String.ofList modifier) := by
  rw [read]
  split
  next found => rw [split] at found; cases found; rfl
  next found => rw [split] at found; cases found

theorem read_of_application (unmodified : splitModifier name = none)
    (split : splitApplication name = some (element, arguments)) :
    read rename name =
      .applied (.named (String.ofList (element.map rename))) (arguments.map (read rename)) := by
  rw [read]
  split
  next found => rw [unmodified] at found; cases found
  next =>
    split
    next found => rw [split] at found; cases found; simp
    next found => rw [split] at found; cases found

theorem read_of_leaf (unmodified : splitModifier name = none)
    (unapplied : splitApplication name = none) :
    read rename name = .named (String.ofList (name.map rename)) := by
  rw [read]
  split
  next found => rw [unmodified] at found; cases found
  next =>
    split
    next found => rw [unapplied] at found; cases found
    next => rfl

theorem splitApplication_eq_none (unbracketed : '[' ∉ name) : splitApplication name = none := by
  have nothing : name.dropWhile (· != '[') = [] := by
    rw [List.dropWhile_eq_nil_iff]
    intro character member
    rw [bne_iff_ne]
    rintro rfl
    exact unbracketed member
  rw [splitApplication, nothing]

/-- A run-time name without arguments and without a modifier. -/
def IsPlain (name : String) : Prop :=
  '[' ∉ name.toList ∧ splitModifier name.toList = none

instance : DecidablePred IsPlain := fun name =>
  inferInstanceAs (Decidable ('[' ∉ name.toList ∧ splitModifier name.toList = none))

/-! ## Pieces -/

/-- A character that does not end a piece, with the number of open brackets before and after it. -/
inductive Passes : Nat → Char → Nat → Prop where
  | opens (depth : Nat) : Passes depth '[' (depth + 1)
  | closes (depth : Nat) : Passes (depth + 1) ']' depth
  | stays {depth : Nat} {character : Char} : character ≠ '[' → character ≠ ']' →
      (character ≠ ',' ∨ depth ≠ 0) → Passes depth character depth

/-- The text, read with some brackets open, comes apart into the pieces. -/
inductive Splits : Nat → List Char → List (List Char) → Prop where
  | nil : Splits 0 [] [[]]
  | comma {text : List Char} {others : List (List Char)} : Splits 0 text others →
      Splits 0 (',' :: text) ([] :: others)
  | pass {depth inner : Nat} {character : Char} {text piece : List Char}
      {others : List (List Char)} : Passes depth character inner →
      Splits inner text (piece :: others) →
      Splits depth (character :: text) ((character :: piece) :: others)

/-- The text closes all brackets and has no comma outside of them. -/
def IsPiece (text : List Char) : Prop := Splits 0 text [text]

theorem Splits.exists_cons (splits : Splits depth text split) :
    ∃ piece others, split = piece :: others := by
  cases splits <;> exact ⟨_, _, rfl⟩

theorem pieces_of_passes (passes : Passes depth character inner) :
    pieces depth (character :: text) = (pieces inner text).map (extendFirst character) := by
  cases passes with
  | opens => simp [pieces]
  | closes => simp [pieces]
  | stays notOpen notClose inside =>
      have notSplit : ¬ (character = ',' ∧ depth = 0) := by
        rintro ⟨isComma, isOutside⟩
        exact inside.elim (· isComma) (· isOutside)
      rw [pieces, if_neg notOpen, if_neg notClose, if_neg notSplit]

theorem pieces_eq_some_iff : pieces depth text = some split ↔ Splits depth text split := by
  constructor
  · intro found
    induction text generalizing depth split with
    | nil =>
        simp only [pieces] at found
        split at found
        next outside =>
          cases found
          subst outside
          exact .nil
        · cases found
    | cons character text ih =>
        have extended : ∀ {inner}, Passes depth character inner →
            Splits depth (character :: text) split := by
          intro inner passes
          rw [pieces_of_passes passes, Option.map_eq_some_iff] at found
          obtain ⟨inside, found, rfl⟩ := found
          obtain ⟨piece, others, rfl⟩ := (ih found).exists_cons
          exact .pass passes (ih found)
        by_cases isOpen : character = '['
        · subst isOpen
          exact extended (.opens depth)
        · by_cases isClose : character = ']'
          · subst isClose
            cases depth with
            | zero => simp [pieces] at found
            | succ depth => exact extended (.closes depth)
          · by_cases ends : character = ',' ∧ depth = 0
            · obtain ⟨rfl, rfl⟩ := ends
              simp only [pieces, Char.reduceEq, if_false, and_self, if_true,
                Option.map_eq_some_iff] at found
              obtain ⟨others, found, rfl⟩ := found
              exact .comma (ih found)
            · exact extended (.stays isOpen isClose (not_and_or.mp ends))
  · intro splits
    induction splits with
    | nil => simp [pieces]
    | comma _ ih => simp [pieces, ih]
    | pass passes _ ih => rw [pieces_of_passes passes, ih]; rfl

namespace Splits

/-- What comes out of a split is made of pieces. The first one is read with the same brackets
open. -/
theorem pieces (splits : Splits depth text split) :
    ∃ piece others, split = piece :: others ∧ Splits depth piece [piece] ∧
      ∀ other ∈ others, IsPiece other := by
  induction splits with
  | nil => exact ⟨[], [], rfl, .nil, nofun⟩
  | comma _ ih =>
      obtain ⟨piece, others, rfl, first, rest⟩ := ih
      refine ⟨[], piece :: others, rfl, .nil, ?_⟩
      intro other member
      rcases List.mem_cons.mp member with rfl | member
      · exact first
      · exact rest other member
  | pass passes _ ih =>
      obtain ⟨piece, others, same, first, rest⟩ := ih
      cases same
      exact ⟨_, _, rfl, .pass passes first, rest⟩

theorem mem_of_mem (splits : Splits depth text split) (pieceMember : piece ∈ split)
    (member : character ∈ piece) : character ∈ text := by
  induction splits generalizing piece with
  | nil =>
      rw [List.mem_singleton] at pieceMember
      rwa [pieceMember] at member
  | comma _ ih =>
      rcases List.mem_cons.mp pieceMember with rfl | pieceMember
      · cases member
      · exact List.mem_cons_of_mem _ (ih pieceMember member)
  | pass _ _ ih =>
      rcases List.mem_cons.mp pieceMember with rfl | pieceMember
      · rcases List.mem_cons.mp member with rfl | member
        · exact List.mem_cons_self
        · exact List.mem_cons_of_mem _ (ih List.mem_cons_self member)
      · exact List.mem_cons_of_mem _ (ih (List.mem_cons_of_mem _ pieceMember) member)

/-- What follows a piece is split as if it stood alone. -/
theorem append (first : Splits depth front [front]) (second : Splits 0 back (piece :: others)) :
    Splits depth (front ++ back) ((front ++ piece) :: others) := by
  induction front generalizing depth with
  | nil =>
      cases first
      exact second
  | cons character front ih =>
      cases first with
      | pass passes first => exact .pass passes (ih first)

/-- What stands in brackets is not split. -/
theorem bracketed (inside : Splits depth text split) (behind : Splits 0 back (piece :: others)) :
    Splits (depth + 1) (text ++ ']' :: back) ((text ++ ']' :: piece) :: others) := by
  induction inside with
  | nil => exact .pass (.closes 0) behind
  | comma _ ih => exact .pass (.stays (by decide) (by decide) (.inr (by decide))) ih
  | pass passes _ ih =>
      cases passes with
      | opens => exact .pass (.opens _) ih
      | closes => exact .pass (.closes _) ih
      | stays notOpen notClose _ => exact .pass (.stays notOpen notClose (.inr nofun)) ih

/-- A piece stays one without an ending that closes what it opens. -/
theorem of_append (closes : ∀ depth, Splits depth back [back] → depth = 0)
    (splits : Splits depth (front ++ back) [front ++ back]) : Splits depth front [front] := by
  induction front generalizing depth with
  | nil =>
      rw [List.nil_append] at splits
      rw [closes depth splits]
      exact .nil
  | cons character front ih =>
      cases splits with
      | pass passes rest => exact .pass passes (ih rest)

theorem depth_eq_zero (splits : Splits depth [] split) : depth = 0 := by
  cases splits
  rfl

/-- A piece ends with neither an opening bracket nor a comma. -/
theorem last_ne (splits : Splits depth (front ++ [character]) [front ++ [character]]) :
    character ≠ '[' ∧ character ≠ ',' := by
  induction front generalizing depth with
  | nil =>
      cases splits with
      | pass passes rest =>
          have outside := rest.depth_eq_zero
          cases passes with
          | opens => cases outside
          | closes => decide
          | stays notOpen _ inside =>
              exact ⟨notOpen, inside.resolve_right (not_not_intro outside)⟩
  | cons _ front ih =>
      cases splits with
      | pass _ rest => exact ih rest

/-- What stands in front of the first opening bracket of a piece is a piece. -/
theorem in_front (splits : Splits 0 (front ++ '[' :: back) [front ++ '[' :: back])
    (unopened : '[' ∉ front) : IsPiece front := by
  induction front with
  | nil => exact .nil
  | cons character front ih =>
      rw [List.mem_cons, not_or] at unopened
      cases splits with
      | pass passes rest =>
          cases passes with
          | opens => exact absurd rfl unopened.1
          | stays notOpen notClose inside =>
              exact .pass (.stays notOpen notClose inside) (ih rest unopened.2)

end Splits

/-! ## Blanks -/

namespace IsPiece

theorem dropWhile_isBlank (piece : IsPiece text) : IsPiece (text.dropWhile Text.isBlank) := by
  induction text with
  | nil => exact piece
  | cons character text ih =>
      rw [List.dropWhile_cons]
      split
      next blank =>
        apply ih
        cases piece with
        | pass passes rest =>
            cases passes with
            | stays => exact rest
            | opens => exact absurd blank (by decide)
      · exact piece

/-- A piece stays one without a blank at its end. -/
theorem of_append_blank (piece : IsPiece (front ++ [character]))
    (blank : Text.isBlank character) : IsPiece front := by
  apply Splits.of_append _ piece
  intro depth splits
  cases splits with
  | pass passes rest =>
      cases passes with
      | stays => exact rest.depth_eq_zero
      | opens => exact absurd blank (by decide)
      | closes => exact absurd blank (by decide)

theorem reverse_dropWhile_isBlank (piece : IsPiece text.reverse) :
    IsPiece (text.dropWhile Text.isBlank).reverse := by
  induction text with
  | nil => exact piece
  | cons character text ih =>
      rw [List.dropWhile_cons]
      split
      next blank =>
        rw [List.reverse_cons] at piece
        exact ih (piece.of_append_blank blank)
      · exact piece

theorem trim (piece : IsPiece text) : IsPiece (Text.trim text) := by
  apply reverse_dropWhile_isBlank
  rw [List.reverse_reverse]
  exact piece.dropWhile_isBlank

end IsPiece

theorem trim_sublist (text : List Char) : (Text.trim text).Sublist text := by
  rw [Text.trim, ← List.reverse_sublist, List.reverse_reverse]
  exact (List.dropWhile_sublist _).trans
    (List.reverse_sublist.mpr (List.dropWhile_sublist Text.isBlank))

/-- A text that neither starts nor ends with a blank. -/
structure IsTrimmed (text : List Char) : Prop where
  first : ∀ character, text.head? = some character → Text.isBlank character = false
  last : ∀ character, text.getLast? = some character → Text.isBlank character = false

theorem trim_eq_self (trimmed : IsTrimmed text) : Text.trim text = text := by
  have kept : ∀ text : List Char,
      (∀ character, text.head? = some character → Text.isBlank character = false) →
      text.dropWhile Text.isBlank = text := by
    intro text first
    cases text with
    | nil => rfl
    | cons character text => rw [List.dropWhile_cons, first character rfl]; rfl
  rw [Text.trim, kept text trimmed.first, kept text.reverse, List.reverse_reverse]
  intro character found
  rw [List.head?_reverse] at found
  exact trimmed.last character found

theorem isTrimmed_trim (text : List Char) : IsTrimmed (Text.trim text) := by
  have first_of_dropWhile : ∀ (text : List Char) (character : Char),
      (text.dropWhile Text.isBlank).head? = some character → Text.isBlank character = false := by
    intro text character found
    have stops := List.head?_dropWhile_not Text.isBlank text
    rw [found] at stops
    simpa using stops
  constructor
  · intro character found
    have part : Text.trim text <+: text.dropWhile Text.isBlank := by
      rw [Text.trim, ← List.reverse_suffix, List.reverse_reverse]
      exact List.dropWhile_suffix _
    obtain ⟨rest, same⟩ := part
    apply first_of_dropWhile text
    rw [← same, List.head?_append, found]
    rfl
  · intro character found
    rw [Text.trim, List.getLast?_reverse] at found
    exact first_of_dropWhile _ character found

/-- No character of the text is blank. -/
def IsBlankFree (text : List Char) : Prop :=
  ∀ character ∈ text, Text.isBlank character = false

instance : DecidablePred IsBlankFree :=
  List.decidableBAll fun character => Text.isBlank character = false

/-- How characters may follow one another: a blank stands neither behind an opening bracket or a
comma nor in front of a comma or a closing bracket. -/
def MayFollow (left right : Char) : Prop :=
  (left ∈ ['[', ','] → Text.isBlank right = false) ∧
    (right ∈ [',', ']'] → Text.isBlank left = false)

instance : DecidableRel MayFollow := fun left right =>
  inferInstanceAs (Decidable ((left ∈ ['[', ','] → Text.isBlank right = false) ∧
    (right ∈ [',', ']'] → Text.isBlank left = false)))

/-- No blank stands next to the text between brackets and commas. -/
def IsTight (text : List Char) : Prop := text.IsChain MayFollow

instance : DecidablePred IsTight := fun text =>
  inferInstanceAs (Decidable (text.IsChain MayFollow))

theorem IsBlankFree.isTight (blankFree : IsBlankFree text) : IsTight text := by
  apply (List.isChain_isInfix text).imp
  intro left right adjacent
  have leftMember : left ∈ text := adjacent.subset List.mem_cons_self
  have rightMember : right ∈ text := adjacent.subset (List.mem_cons_of_mem _ List.mem_cons_self)
  exact ⟨fun _ => blankFree right rightMember, fun _ => blankFree left leftMember⟩

namespace IsTight

variable {opener closer : Char}

/-- What stands between brackets or commas has no blanks at its ends. -/
theorem isTrimmed (opens : opener ∈ ['[', ',']) (closes : closer ∈ [',', ']'])
    (tight : IsTight (opener :: piece ++ [closer])) : IsTrimmed piece where
  first := by
    intro character found
    obtain ⟨rest, rfl⟩ := List.head?_eq_some_iff.mp found
    exact (List.isChain_cons_cons.mp tight).1.1 opens
  last := by
    intro character found
    obtain ⟨front, rfl⟩ := List.getLast?_eq_some_iff.mp found
    rw [← List.cons_append, List.append_assoc] at tight
    exact (List.isChain_append_cons_cons.mp tight).2.1.2 closes

theorem of_intercalate (opens : opener ∈ ['[', ','])
    (tight : IsTight (opener :: [','].intercalate split ++ [']'])) :
    ∀ piece ∈ split, IsTight piece ∧ IsTrimmed piece := by
  induction split generalizing opener with
  | nil => exact nofun
  | cons first rest ih =>
      cases rest with
      | nil =>
          rw [List.intercalate_singleton] at tight
          have inside : IsTight first := tight.infix ⟨[opener], [']'], rfl⟩
          exact List.forall_mem_singleton.mpr ⟨inside, isTrimmed opens (by decide) tight⟩
      | cons second rest =>
          rw [List.intercalate_cons_cons] at tight
          have inside : IsTight first := tight.infix
            ⟨[opener], ',' :: [','].intercalate (second :: rest) ++ [']'], by simp⟩
          have here : IsTight (opener :: first ++ [',']) := tight.prefix
            ⟨[','].intercalate (second :: rest) ++ [']'], by simp⟩
          have others : IsTight (',' :: [','].intercalate (second :: rest) ++ [']']) :=
            tight.suffix ⟨opener :: first, by simp⟩
          exact List.forall_mem_cons.mpr
            ⟨⟨inside, isTrimmed opens (by decide) here⟩, ih (by decide) others⟩

end IsTight

/-! ## Modifiers -/

/-- The modifiers of a type: a reference, a pointer and an array of some rank. -/
inductive IsModifier : List Char → Prop where
  | reference : IsModifier ['&']
  | pointer : IsModifier ['*']
  | array (commas : Nat) : IsModifier ('[' :: List.replicate commas ',' ++ [']'])

theorem splitModifier_append (isModifier : IsModifier modifier) (notEmpty : element ≠ []) :
    splitModifier (element ++ modifier) = some (element, modifier) := by
  cases isModifier with
  | reference => simp [splitModifier, notEmpty]
  | pointer => simp [splitModifier, notEmpty]
  | array commas =>
      simp [splitModifier, notEmpty]

theorem splitModifier_eq_some_iff :
    splitModifier name = some (element, modifier) ↔
      name = element ++ modifier ∧ element ≠ [] ∧ IsModifier modifier := by
  constructor
  · intro split
    rw [splitModifier] at split
    split at split
    next back reversed =>
      have same := List.reverse_eq_iff.mp reversed
      split at split
      · cases split
      next notEmpty =>
        cases split
        exact ⟨by simp [same], by simpa using notEmpty, .reference⟩
    next back reversed =>
      have same := List.reverse_eq_iff.mp reversed
      split at split
      · cases split
      next notEmpty =>
        cases split
        exact ⟨by simp [same], by simpa using notEmpty, .pointer⟩
    next back reversed =>
      have same := List.reverse_eq_iff.mp reversed
      split at split
      next inner dropped =>
        split at split
        · cases split
        next notEmpty =>
          cases split
          have commas : back.takeWhile (· == ',') =
              List.replicate (back.takeWhile (· == ',')).length ',' := by
            apply List.eq_replicate_of_mem
            intro character member
            simpa using List.mem_takeWhile_imp member
          have whole : back = back.takeWhile (· == ',') ++ '[' :: inner := by
            rw [← dropped, List.takeWhile_append_dropWhile]
          refine ⟨?_, by simpa using notEmpty, ?_⟩
          · rw [same, whole, commas]
            simp
          · rw [commas]
            exact .array _
      · cases split
    · cases split
  · rintro ⟨rfl, notEmpty, isModifier⟩
    exact splitModifier_append isModifier notEmpty

namespace IsModifier

theorem isPiece (isModifier : IsModifier modifier) : IsPiece modifier := by
  cases isModifier with
  | reference => exact .pass (.stays (by decide) (by decide) (.inl (by decide))) .nil
  | pointer => exact .pass (.stays (by decide) (by decide) (.inl (by decide))) .nil
  | array commas =>
      have inside : Splits 0 (List.replicate commas ',') (List.replicate (commas + 1) []) := by
        induction commas with
        | zero => exact .nil
        | succ commas ih => exact .comma ih
      exact .pass (.opens 0) (inside.bracketed .nil)

private theorem depth_of_commas (commas : Nat)
    (splits : Splits (depth + 1) (List.replicate commas ',' ++ [']'])
      [List.replicate commas ',' ++ [']']]) : depth = 0 := by
  induction commas with
  | zero =>
      cases splits with
      | pass passes rest =>
          cases passes with
          | closes => exact rest.depth_eq_zero
          | stays _ notClose => exact absurd rfl notClose
  | succ commas ih =>
      cases splits with
      | pass passes rest =>
          cases passes with
          | stays => exact ih rest

theorem closes (isModifier : IsModifier modifier) (splits : Splits depth modifier [modifier]) :
    depth = 0 := by
  cases isModifier with
  | reference =>
      cases splits with
      | pass passes rest =>
          cases passes with
          | stays => exact rest.depth_eq_zero
  | pointer =>
      cases splits with
      | pass passes rest =>
          cases passes with
          | stays => exact rest.depth_eq_zero
  | array commas =>
      cases splits with
      | pass passes rest =>
          cases passes with
          | opens => exact depth_of_commas commas rest
          | stays notOpen => exact absurd rfl notOpen

theorem map_runtimeChar (isModifier : IsModifier modifier) :
    modifier.map runtimeChar = modifier := by
  cases isModifier with
  | reference => rfl
  | pointer => rfl
  | array commas => simp [runtimeChar]

theorem exists_mark (isModifier : IsModifier modifier) :
    ∃ mark ∈ modifier, mark ∈ ['[', '&', '*'] := by
  cases isModifier with
  | reference => exact ⟨'&', List.mem_cons_self, by decide⟩
  | pointer => exact ⟨'*', List.mem_cons_self, by decide⟩
  | array commas => exact ⟨'[', List.mem_cons_self, by decide⟩

end IsModifier

/-- A name without the marks of modifiers ends in none. -/
theorem splitModifier_eq_none (unmarked : ∀ character ∈ name, character ∉ ['[', '&', '*']) :
    splitModifier name = none := by
  rw [Option.eq_none_iff_forall_ne_some]
  rintro ⟨element, modifier⟩ split
  obtain ⟨rfl, _, isModifier⟩ := splitModifier_eq_some_iff.mp split
  obtain ⟨mark, member, isMark⟩ := isModifier.exists_mark
  exact unmarked mark (List.mem_append_right element member) isMark

/-! ## Applications -/

theorem splitApplication_eq_some_iff :
    splitApplication name = some (element, arguments) ↔
      '[' ∉ element ∧ arityMark ∈ element ∧ ∃ inside split,
        name = element ++ '[' :: inside ++ [']'] ∧ Splits 0 inside split ∧
        arguments = split.map Text.trim ∧ ∀ argument ∈ arguments, argument ≠ [] := by
  constructor
  · intro split
    rw [splitApplication] at split
    dsimp only at split
    split at split
    next back opened =>
      split at split
      next marked =>
        split at split
        next pieces found =>
          split at split
          · cases split
          next full =>
            cases split
            obtain ⟨inside, rfl⟩ := List.getLast?_eq_some_iff.mp marked.2
            refine ⟨?_, marked.1, inside, pieces, ?_, ?_, rfl, ?_⟩
            · intro member
              simpa using List.mem_takeWhile_imp member
            · rw [List.append_assoc, List.cons_append, ← opened, List.takeWhile_append_dropWhile]
            · rw [List.dropLast_concat] at found
              exact pieces_eq_some_iff.mp found
            · simpa using full
        · cases split
      · cases split
    · cases split
  · rintro ⟨unopened, marked, inside, pieces, rfl, splits, rfl, full⟩
    have passed : ∀ character ∈ element, (character != '[') = true := by
      intro character member
      rw [bne_iff_ne]
      rintro rfl
      exact unopened member
    have shape : element ++ '[' :: inside ++ [']'] = element ++ ('[' :: (inside ++ [']'])) := by
      simp
    have dropped : (element ++ '[' :: inside ++ [']']).dropWhile (· != '[') =
        '[' :: (inside ++ [']']) := by
      rw [shape, List.dropWhile_append_of_pos passed]
      rfl
    have taken : (element ++ '[' :: inside ++ [']']).takeWhile (· != '[') = element := by
      rw [shape, List.takeWhile_append_of_pos passed]
      simp
    have last : (inside ++ [']']).getLast? = some ']' := List.getLast?_concat ..
    have found := pieces_eq_some_iff.mpr splits
    have nonempty : ¬ (pieces.map Text.trim).any List.isEmpty := by simpa using full
    rw [splitApplication, dropped, taken]
    simp only [marked, last, and_self, if_true, List.dropLast_concat, found, if_neg nonempty]

/-- Arguments are trimmed pieces. -/
theorem arguments_of_splitApplication
    (found : splitApplication name = some (element, arguments)) :
    arguments ≠ [] ∧ ∀ argument ∈ arguments,
      IsPiece argument ∧ IsTrimmed argument ∧ argument ≠ [] := by
  obtain ⟨_, _, inside, pieces, rfl, splits, rfl, full⟩ := splitApplication_eq_some_iff.mp found
  obtain ⟨piece, others, rfl, first, rest⟩ := splits.pieces
  refine ⟨by simp, ?_⟩
  intro argument member
  refine ⟨?_, ?_, full argument member⟩
  · obtain ⟨original, originalMember, rfl⟩ := List.mem_map.mp member
    rcases List.mem_cons.mp originalMember with rfl | originalMember
    · exact IsPiece.trim first
    · exact (rest original originalMember).trim
  · obtain ⟨original, _, rfl⟩ := List.mem_map.mp member
    exact isTrimmed_trim original

/-- Pieces written one after the other come apart again. -/
theorem splits_intercalate (nonempty : arguments ≠ [])
    (pieces : ∀ argument ∈ arguments, IsPiece argument) :
    Splits 0 ([','].intercalate arguments) arguments := by
  induction arguments with
  | nil => exact absurd rfl nonempty
  | cons first rest ih =>
      have firstPiece := pieces first List.mem_cons_self
      cases rest with
      | nil =>
          rw [List.intercalate_singleton]
          exact firstPiece
      | cons second rest =>
          have others := ih nofun fun argument member =>
            pieces argument (List.mem_cons_of_mem _ member)
          rw [List.intercalate_cons_cons, List.append_assoc]
          simpa using firstPiece.append (.comma others)

/-- What comes apart is put together again. -/
theorem intercalate_of_splits (splits : Splits depth text split) :
    [','].intercalate split = text := by
  induction splits with
  | nil => rfl
  | comma splits ih =>
      obtain ⟨piece, others, rfl⟩ := splits.exists_cons
      rw [List.intercalate_cons_cons, ih]
      rfl
  | @pass _ _ _ _ piece others _ _ ih =>
      cases others with
      | nil =>
          rw [List.intercalate_singleton] at ih ⊢
          rw [ih]
      | cons other others =>
          rw [List.intercalate_cons_cons] at ih ⊢
          rw [← ih]
          rfl

/-- A tight name is its definition and its arguments, and these are tight. -/
theorem IsTight.of_application (tight : IsTight name)
    (found : splitApplication name = some (element, arguments)) :
    name = element ++ '[' :: [','].intercalate arguments ++ [']'] ∧
      ∀ argument ∈ arguments, IsTight argument := by
  obtain ⟨_, _, inside, pieces, rfl, splits, rfl, _⟩ := splitApplication_eq_some_iff.mp found
  rw [← intercalate_of_splits splits] at tight ⊢
  have bracketed : IsTight ('[' :: [','].intercalate pieces ++ [']']) :=
    tight.suffix ⟨element, by simp⟩
  have each := bracketed.of_intercalate List.mem_cons_self
  have kept : pieces.map Text.trim = pieces := by
    rw [List.map_congr_left fun piece member => trim_eq_self (each piece member).2]
    exact List.map_id' _
  rw [kept]
  exact ⟨rfl, fun piece member => (each piece member).1⟩

theorem map_intercalate (change : Char → Char) (texts : List (List Char)) :
    ([character].intercalate texts).map change =
      [change character].intercalate (texts.map (·.map change)) := by
  induction texts with
  | nil => rfl
  | cons first rest ih =>
      cases rest with
      | nil => simp
      | cons second rest =>
          simp only [List.map_cons, List.intercalate_cons_cons, List.map_append] at ih ⊢
          rw [ih, List.map_nil]

theorem infix_intercalate (member : piece ∈ split) : piece <:+: [','].intercalate split := by
  induction split with
  | nil => cases member
  | cons first rest ih =>
      cases rest with
      | nil =>
          rw [List.mem_singleton.mp member]
          exact ⟨[], [], by simp⟩
      | cons second rest =>
          rw [List.intercalate_cons_cons, List.append_assoc]
          rcases List.mem_cons.mp member with rfl | member
          · exact (List.prefix_append _ _).isInfix
          · exact ((ih member).trans (List.suffix_append _ _).isInfix).trans
              (List.suffix_append _ _).isInfix

theorem exists_suffix_intercalate (nonempty : arguments ≠ []) :
    ∃ argument ∈ arguments, argument <:+ [','].intercalate arguments := by
  induction arguments with
  | nil => exact absurd rfl nonempty
  | cons first rest ih =>
      cases rest with
      | nil =>
          rw [List.intercalate_singleton]
          exact ⟨first, List.mem_cons_self, List.suffix_rfl⟩
      | cons second rest =>
          obtain ⟨argument, member, suffix⟩ := ih nofun
          refine ⟨argument, List.mem_cons_of_mem _ member, ?_⟩
          rw [List.intercalate_cons_cons]
          exact suffix.trans (List.suffix_append _ _)

/-- A bracketed list of pieces is no array modifier. -/
theorem splitModifier_bracketed (nonempty : arguments ≠ [])
    (pieces : ∀ argument ∈ arguments, IsPiece argument ∧ argument ≠ []) :
    splitModifier (element ++ '[' :: [','].intercalate arguments ++ [']']) = none := by
  obtain ⟨argument, member, start, whole⟩ := exists_suffix_intercalate nonempty
  obtain ⟨piece, full⟩ := pieces argument member
  obtain ⟨front, character, ends⟩ := (List.eq_nil_or_concat argument).resolve_left full
  rw [List.concat_eq_append] at ends
  subst ends
  obtain ⟨notOpen, notComma⟩ := Splits.last_ne piece
  have shape : element ++ '[' :: [','].intercalate arguments =
      (element ++ '[' :: (start ++ front)) ++ [character] := by simp [← whole]
  rw [shape]
  cases split : splitModifier (element ++ '[' :: (start ++ front) ++ [character] ++ [']']) with
  | none => rfl
  | some parts =>
      obtain ⟨rest, modifier⟩ := parts
      obtain ⟨same, _, isModifier⟩ := splitModifier_eq_some_iff.mp split
      exfalso
      cases isModifier with
      | reference => simpa using (List.append_inj' same rfl).2
      | pointer => simpa using (List.append_inj' same rfl).2
      | array commas =>
          rw [← List.append_assoc] at same
          have inner := (List.append_inj' same rfl).1
          cases commas with
          | zero => exact notOpen (by simpa using (List.append_inj' inner rfl).2)
          | succ commas =>
              have ends : rest ++ '[' :: List.replicate (commas + 1) ',' =
                  (rest ++ '[' :: List.replicate commas ',') ++ [','] := by
                simp [List.replicate_succ']
              exact notComma (by simpa using (List.append_inj' (inner.trans ends) rfl).2)

/-- A definition with a bracketed list of pieces behind it is a piece. -/
theorem IsPiece.bracketed (piece : IsPiece element) (nonempty : arguments ≠ [])
    (pieces : ∀ argument ∈ arguments, IsPiece argument) :
    IsPiece (element ++ '[' :: [','].intercalate arguments ++ [']']) := by
  have inner := splits_intercalate nonempty pieces
  rw [List.append_assoc]
  exact Splits.append piece (.pass (.opens 0) (inner.bracketed .nil))

/-- A definition with a bracketed list of trimmed pieces behind it comes apart into these. -/
theorem split_bracketed (unopened : '[' ∉ element) (marked : arityMark ∈ element)
    (nonempty : arguments ≠ [])
    (each : ∀ argument ∈ arguments, IsPiece argument ∧ IsTrimmed argument ∧ argument ≠ []) :
    splitModifier (element ++ '[' :: [','].intercalate arguments ++ [']']) = none ∧
      splitApplication (element ++ '[' :: [','].intercalate arguments ++ [']']) =
        some (element, arguments) := by
  constructor
  · apply splitModifier_bracketed nonempty
    intro argument member
    exact ⟨(each argument member).1, (each argument member).2.2⟩
  · have kept : arguments.map Text.trim = arguments := by
      rw [List.map_congr_left fun argument member => trim_eq_self (each argument member).2.1]
      exact List.map_id' _
    have splits := splits_intercalate nonempty fun argument member => (each argument member).1
    refine splitApplication_eq_some_iff.mpr ⟨unopened, marked, _, _, rfl, splits, kept.symm, ?_⟩
    intro argument member
    exact (each argument member).2.2

end Splice.TypeName
