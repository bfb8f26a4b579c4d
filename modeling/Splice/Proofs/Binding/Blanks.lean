import Splice.Proofs.Binding.Methods

/-!
# Blanks in names

Blanks around the arguments in a name are dropped when the name is read, so the type that is found
may go by another name. Up to blanks it is the same one.
-/

namespace Splice

variable {name element : List Char} {arguments : List (List Char)} {exprs : List TypeExpr}
variable {expr definition : TypeExpr} {scope : Scope} {binder : Binder} {names : List String}

namespace TypeName

/-- The name without its blanks. -/
def dense (name : List Char) : List Char :=
  name.filter fun character => !Text.isBlank character

@[simp] theorem dense_append (front back : List Char) :
    dense (front ++ back) = dense front ++ dense back :=
  List.filter_append ..

theorem dense_cons_of_not_isBlank {character : Char} (solid : Text.isBlank character = false)
    (rest : List Char) : dense (character :: rest) = character :: dense rest :=
  List.filter_cons_of_pos (by rw [solid]; rfl)

theorem dense_dropWhile (text : List Char) : dense (text.dropWhile Text.isBlank) = dense text := by
  induction text with
  | nil => rfl
  | cons character rest ih =>
      rw [List.dropWhile_cons]
      split
      next blank =>
        rw [ih, dense, dense, List.filter_cons_of_neg (by simp [blank])]
      · rfl

theorem dense_reverse (text : List Char) : dense text.reverse = (dense text).reverse :=
  List.filter_reverse ..

theorem dense_trim (text : List Char) : dense (Text.trim text) = dense text := by
  rw [Text.trim, dense_reverse, dense_dropWhile, dense_reverse, dense_dropWhile,
    List.reverse_reverse]

theorem dense_intercalate (texts : List (List Char)) :
    dense ([','].intercalate texts) = [','].intercalate (texts.map dense) := by
  induction texts with
  | nil => rfl
  | cons first rest ih =>
      cases rest with
      | nil => simp
      | cons second rest =>
          simp only [List.map_cons, List.intercalate_cons_cons, dense_append] at ih ⊢
          rw [ih]
          rfl

/-- Arguments in brackets behind a definition. -/
theorem dense_bracketed (front : List Char) (texts : List (List Char)) :
    dense (front ++ '[' :: [','].intercalate texts ++ [']']) =
      dense front ++ '[' :: [','].intercalate (texts.map dense) ++ [']'] := by
  rw [dense_append, dense_append, dense_cons_of_not_isBlank (by decide), dense_intercalate]
  rfl

theorem dense_of_splitApplication (split : splitApplication name = some (element, arguments)) :
    dense name = dense element ++ '[' :: [','].intercalate (arguments.map dense) ++ [']'] := by
  obtain ⟨_, _, inside, pieces, rfl, splits, rfl, _⟩ := splitApplication_eq_some_iff.mp split
  have trimmed : (pieces.map Text.trim).map dense = pieces.map dense := by
    rw [List.map_map]
    exact List.map_congr_left fun piece _ => dense_trim piece
  rw [← intercalate_of_splits splits, dense_bracketed, trimmed]

/-- What is read and written again differs in blanks only. -/
theorem dense_normal (runtime : IsRuntime name) : dense (normal name) = dense name := by
  induction name using read.induct with
  | case1 name element modifier split ih =>
      obtain ⟨same, _, _⟩ := splitModifier_eq_some_iff.mp split
      rw [normal_of_modifier split, dense_append, ih (runtime.of_modifier split), same,
        dense_append]
  | case2 name unmodified element arguments split ih =>
      have argumentRuntime := (runtime.of_application split).2
      have written : (arguments.map normal).map dense = arguments.map dense := by
        rw [List.map_map]
        exact List.map_congr_left fun argument member =>
          ih ⟨argument, member⟩ (argumentRuntime argument member)
      rw [normal_of_application runtime unmodified split, dense_bracketed, written,
        dense_of_splitApplication split]
  | case3 name unmodified unapplied => rw [normal_of_leaf runtime unmodified unapplied]

end TypeName

open Splice.TypeName (dense)

/-- Up to blanks, the key of an application is made of the keys of its parts. -/
theorem TypeExpr.dense_key_of_application (shape : expr.shape = .application definition exprs) :
    dense expr.key.toList = dense definition.key.toList ++
      '[' :: [','].intercalate (exprs.map (dense ·.key.toList)) ++ [']'] := by
  cases expr with
  | applied =>
      cases shape
      rw [toList_key_applied, TypeName.dense_bracketed, List.map_map]
      rfl
  | named name =>
      have runtime := TypeName.IsRuntime.of_key (.named name)
      obtain ⟨_, element, parts, split, rfl, rfl⟩ := split_of_shapeOfName shape
      obtain ⟨elementRuntime, partsRuntime⟩ := runtime.of_application split
      have elementKey : (named (String.ofList element)).key.toList = element := by
        rw [toList_key_named, String.toList_ofList, elementRuntime.map_eq_self]
      have partKeys : (parts.map (TypeName.read id)).map (dense ·.key.toList) = parts.map dense := by
        rw [List.map_map]
        exact List.map_congr_left fun part member =>
          TypeName.dense_normal (partsRuntime part member)
      rw [elementKey, partKeys]
      exact TypeName.dense_of_splitApplication split

/-- Up to blanks, the type goes by the name. -/
def GoesAlike (name : String) (type : Descriptor) : Prop :=
  dense type.fullName.toList = dense name.toList

theorem denseNames_of_goesAlike {types : List Descriptor}
    (goAlike : List.Forall₂ (fun (expr : TypeExpr) type => GoesAlike expr.key type) exprs types) :
    types.map (dense ·.fullName.toList) = exprs.map (dense ·.key.toList) := by
  induction goAlike with
  | nil => rfl
  | cons here _ ih => rw [List.map_cons, List.map_cons, here, ih]

theorem Scope.IsTruthful.upholds_goesAlike (truthful : scope.IsTruthful) :
    scope.Upholds GoesAlike where
  plain _ found := by rw [GoesAlike, fullName_of_lookup truthful found]
  application := by
    intro expr element arguments definition types type shape elementGoes argumentsGo closes
    obtain ⟨rfl, _⟩ := Descriptor.closed_of_close closes
    have written := denseNames_of_goesAlike argumentsGo
    rw [GoesAlike, TypeExpr.dense_key_of_application shape, Descriptor.toList_fullName_closed,
      TypeName.dense_bracketed, List.map_map, ← written, elementGoes]
    rfl
  modification := by
    intro expr element modifier type base shape elementGoes
    obtain ⟨written, _⟩ := TypeExpr.key_of_modification shape
    rw [GoesAlike, Descriptor.fullName, String.toList_append, TypeName.dense_append, elementGoes,
      written, TypeName.dense_append]

namespace Binder

/-- In every state of a binder types are known by their names up to blanks. -/
theorem goesAlike_performAll {σ : Type} {env : Environment σ} {directories : List String}
    {module : Module} {world ended : σ}
    (made : ofModule env directories module world = (.ok binder, ended))
    (truthful : binder.scope.IsTruthful) (calls : List Call) :
    (binder.performAll calls).scope.Upholds GoesAlike ∧
      (binder.performAll calls).cache.Holds GoesAlike := by
  rw [scope_performAll]
  have upheld (own : Assembly) : ({ binder.scope with own } : Scope).IsTruthful := truthful
  exact ⟨truthful.upholds_goesAlike,
    cache_holds_performAll made (fun own => (upheld own).upholds_goesAlike) calls⟩

/-- Up to blanks, types are known by the names under which they are required. -/
theorem denseNames_of_requireNames (upholds : binder.scope.Upholds GoesAlike)
    (held : binder.cache.Holds GoesAlike)
    (required : (binder.requireNames exprs).1 = .ok names) :
    names.map (dense ·.toList) = exprs.map (dense ·.key.toList) := by
  obtain ⟨types, rfl, goAlike⟩ := forall₂_of_requireNames upholds held required
  rw [List.map_map]
  exact denseNames_of_goesAlike goAlike

end Binder

end Splice
