import Splice.Proofs.Binding.Blanks
import Splice.Proofs.Binding.MappedMembers
import Splice.Proofs.Weaving.Eligibility

/-!
# Whose attributes count

A method is judged by the member that its type has for its name and the types of its parameters.
Types that are returned do not count, so a conversion operator may be judged by the attributes of
another one. Methods that differ in more than that have no part in each other's judgement.
-/

namespace Splice

open Splice.TypeName (dense)

variable {σ α β : Type} {env : Environment σ} {directories : List String} {module : Module}
variable {world ended : σ} {binder other : Binder} {decl : TypeDecl} {method changed : Method}
variable {signature member : Member} {type : Descriptor} {typeIndex methodIndex : Nat}

/-! ## Putting other attributes on a method -/

def TypeDecl.setAttributes (decl : TypeDecl) (methodIndex : Nat) (attributes : List TypeExpr) :
    TypeDecl :=
  { decl with methods := decl.methods.modify methodIndex ({ · with attributes }) }

def Module.setAttributes (module : Module) (typeIndex methodIndex : Nat)
    (attributes : List TypeExpr) : Module :=
  { module with types := module.types.modify typeIndex (·.setAttributes methodIndex attributes) }

/-- The methods go by one name, are both static or both not, and take the same types up to blanks in
their names. -/
structure Method.Resembles (method other : Method) : Prop where
  name : method.name = other.name
  isStatic : method.isStatic = other.isStatic
  parameters : method.parameters.map (dense ·.type.key.toList) =
    other.parameters.map (dense ·.type.key.toList)

instance : DecidableRel Method.Resembles := fun method other =>
  decidable_of_iff (method.name = other.name ∧ method.isStatic = other.isStatic ∧
      method.parameters.map (dense ·.type.key.toList) =
        other.parameters.map (dense ·.type.key.toList))
    ⟨fun ⟨name, isStatic, parameters⟩ => ⟨name, isStatic, parameters⟩,
      fun ⟨name, isStatic, parameters⟩ => ⟨name, isStatic, parameters⟩⟩

/-! ## Silenced members -/

/-- The member, without its markers if it has the signature. -/
def Member.silence (signature member : Member) : Member :=
  if member.sameSignature signature then { member with markers := [] } else member

namespace Member

theorem silence_eq_self (differs : ¬ member.sameSignature signature = true) :
    silence signature member = member := if_neg differs

theorem keepsSignatures_silence (signature : Member) :
    Binder.KeepsSignatures (silence signature) where
  sameSignature member other := by
    rw [silence]
    split <;> rfl
  isVirtual member := by
    rw [silence]
    split <;> rfl

/-- Members of one signature have it in common with the same others. -/
theorem sameSignature_congr {other : Member} (same : member.sameSignature other = true)
    (signature : Member) : member.sameSignature signature = other.sameSignature signature := by
  simp only [sameSignature, Bool.and_eq_true, beq_iff_eq] at same
  obtain ⟨⟨⟨name, kind⟩, isStatic⟩, parameters⟩ := same
  rw [sameSignature, sameSignature, name, kind, isStatic, parameters]

end Member

/-- The method, without its attributes if it has the signature of the other one. -/
def Method.silence (changed method : Method) : Method :=
  if method.toMember.sameSignature changed.toMember then { method with attributes := [] }
  else method

theorem Method.matches_silence (changed : Method) :
    Binder.Matches (silence changed) (Member.silence changed.toMember) := by
  intro method
  rw [silence, Member.silence]
  split <;> rfl

namespace Descriptor

/-- Members of another signature are overridden as before. -/
theorem overridden?_silence (differs : ¬ member.sameSignature signature = true)
    (type : Descriptor) :
    (type.mapMembers (Member.silence signature)).overridden? member = type.overridden? member := by
  have keeps := Member.keepsSignatures_silence signature
  have accepted : (fun other : Member => other.isVirtual && other.sameSignature member) ∘
      Member.silence signature = fun other => other.isVirtual && other.sameSignature member := by
    funext other
    rw [Function.comp_apply, keeps.isVirtual, keeps.sameSignature]
  rw [overridden?, members_mapMembers, List.find?_map, accepted, ← overridden?]
  cases found : type.overridden? member with
  | none => rfl
  | some other =>
      have same := List.find?_some found
      rw [Bool.and_eq_true] at same
      rw [← Member.sameSignature_congr same.2] at differs
      rw [Option.map_some, Member.silence_eq_self differs]

theorem memberHasMarker_silence (differs : ¬ member.sameSignature signature = true)
    (type : Descriptor) (marker : String) (inherit : Bool) :
    (type.mapMembers (Member.silence signature)).memberHasMarker member marker inherit =
      type.memberHasMarker member marker inherit := by
  rw [memberHasMarker, memberHasMarker, bases_mapMembers, List.filterMap_map]
  simp only [Function.comp_def, overridden?_silence differs]

theorem hasMarker_mapMembers {change : Member → Member} (type : Descriptor) (marker : String)
    (inherit : Bool) :
    (type.mapMembers change).hasMarker marker inherit = type.hasMarker marker inherit := by
  rw [hasMarker, hasMarker, bases_mapMembers, List.any_map]
  simp only [Function.comp_def, carries, passesOn, markers_mapMembers]

end Descriptor

namespace Concern

theorem appliesTo_silence (concern : Concern) (differs : ¬ member.sameSignature signature = true)
    (type : Descriptor) :
    concern.appliesTo (type.mapMembers (Member.silence signature)) member =
      concern.appliesTo type member := by
  simp only [appliesTo, Descriptor.memberHasMarker_silence differs,
    Descriptor.hasMarker_mapMembers]

end Concern

/-! ## Whose attributes count -/

namespace Binder

/-- A method that is judged by a member of another method's signature resembles that method. -/
theorem resembles_of_resolveMethod (upholds : binder.scope.Upholds GoesAlike)
    (held : binder.cache.Holds GoesAlike)
    (resolved : (binder.resolveMethod method decl).1 = .ok (some (type, member)))
    (same : member.sameSignature changed.toMember = true) : method.Resembles changed := by
  have heldAfter := (keeps_resolve upholds held false decl.toExpr).holds
  have upholdsAfter : (binder.resolve false decl.toExpr).2.scope.Upholds GoesAlike := upholds
  rw [resolveMethod] at resolved
  generalize binder.resolve false decl.toExpr = result at resolved heldAfter upholdsAfter
  obtain ⟨error | _ | found, between⟩ := result
  · cases resolved
  · cases resolved
  · dsimp only at resolved
    split at resolved
    next => cases resolved
    next names after required =>
      obtain ⟨candidate, matched, here⟩ := Option.map_eq_some_iff.mp (Except.ok.inj resolved)
      cases here
      rw [memberOf?_eq_find?] at matched
      have accepted := List.find?_some matched
      have written := denseNames_of_requireNames upholdsAfter heldAfter
        (congrArg Prod.fst required)
      have both : ({ method.toMember with parameters := names } : Member).sameSignature
          changed.toMember = true := by
        rw [← Member.sameSignature_congr accepted]
        exact same
      simp only [Member.sameSignature, Bool.and_eq_true, beq_iff_eq] at both
      obtain ⟨⟨⟨name, _⟩, isStatic⟩, parameters⟩ := both
      refine ⟨name, isStatic, ?_⟩
      rw [parameters, Method.toMember, List.map_map, List.map_map] at written
      exact written.symm

end Binder

/-- Apart from what an adjustment leads to, an image of a list does not see it. -/
theorem map_modify {values : List α} {index : Nat} {adjust : α → α} {image : α → β}
    (blind : ∀ value, values[index]? = some value → image (adjust value) = image value) :
    (values.modify index adjust).map image = values.map image := by
  apply List.ext_getElem?
  intro position
  rw [List.getElem?_map, List.getElem?_map, List.getElem?_modify]
  cases here : values[position]? with
  | none => rfl
  | some value =>
      rw [Option.map_eq_map, Option.map_some, Option.map_some, Option.map_some]
      split
      next same =>
        rw [blind value (same ▸ here)]
      · rfl

/-- The other attributes do not show once the method is silenced. -/
theorem Module.mapMethods_setAttributes (declared : module.types[typeIndex]? = some decl)
    (owned : decl.methods[methodIndex]? = some changed) (attributes : List TypeExpr) :
    (module.setAttributes typeIndex methodIndex attributes).mapMethods (Method.silence changed) =
      module.mapMethods (Method.silence changed) := by
  have methods : (decl.methods.modify methodIndex ({ · with attributes })).map
      (Method.silence changed) = decl.methods.map (Method.silence changed) := by
    apply map_modify
    intro method here
    rw [owned] at here
    cases here
    have self : changed.toMember.sameSignature changed.toMember = true :=
      Method.sameSignature_toMember.mpr ⟨rfl, rfl, rfl⟩
    have adjusted : ({ changed with attributes } : Method).toMember.sameSignature changed.toMember =
      true := self
    rw [Method.silence, Method.silence, if_pos adjusted, if_pos self]
  have types : (module.types.modify typeIndex (·.setAttributes methodIndex attributes)).map
        (TypeDecl.mapMethods (Method.silence changed)) =
      module.types.map (TypeDecl.mapMethods (Method.silence changed)) := by
    apply map_modify
    intro found here
    rw [declared] at here
    cases here
    rw [TypeDecl.setAttributes, TypeDecl.mapMethods, TypeDecl.mapMethods, methods]
  rw [mapMethods, mapMethods, setAttributes, types]

namespace Concern

/-- Binders that are the same once a method's attributes are silenced judge alike every method that
does not resemble it. -/
theorem isWanted_congr (concern : Concern) (upholds : binder.scope.Upholds GoesAlike)
    (held : binder.cache.Holds GoesAlike)
    (same : binder.mapMembers (Member.silence changed.toMember) =
      other.mapMembers (Member.silence changed.toMember))
    (unlike : ¬ method.Resembles changed) (decl : TypeDecl) :
    (concern.isWanted method decl binder).1 = (concern.isWanted method decl other).1 := by
  have keeps := Member.keepsSignatures_silence changed.toMember
  have answers : ((binder.resolveMethod method decl).1.map _) =
      ((other.resolveMethod method decl).1.map _) :=
    calc _
      _ = ((binder.mapMembers (Member.silence changed.toMember)).resolveMethod method decl).1 :=
        (congrArg Prod.fst (Binder.resolveMethod_mapMembers keeps binder method decl)).symm
      _ = ((other.mapMembers (Member.silence changed.toMember)).resolveMethod method decl).1 := by
        rw [same]
      _ = _ := congrArg Prod.fst (Binder.resolveMethod_mapMembers keeps other method decl)
  rw [fst_isWanted, fst_isWanted]
  generalize resolved : (binder.resolveMethod method decl).1 = mine at answers
  generalize (other.resolveMethod method decl).1 = theirs at answers
  -- The answers are of one kind, and only where a member is found is there something to compare.
  rcases mine with error | _ | ⟨type, member⟩ <;>
    rcases theirs with otherError | _ | ⟨otherType, otherMember⟩ <;>
    simp only [Except.map, Option.map_some, Option.map_none, Except.ok.injEq, Except.error.injEq,
      Option.some.injEq, Prod.mk.injEq, reduceCtorEq] at answers
  · rfl
  · rfl
  · have differs : ¬ member.sameSignature changed.toMember = true := fun same =>
      unlike (Binder.resembles_of_resolveMethod upholds held resolved same)
    obtain ⟨types, members⟩ := answers
    -- Neither member is one that is silenced, so they are the same member.
    rw [Member.silence_eq_self differs] at members
    have otherDiffers : ¬ otherMember.sameSignature changed.toMember = true := by
      rw [← keeps.sameSignature, ← members]
      exact differs
    rw [Member.silence_eq_self otherDiffers] at members
    rw [← members]
    dsimp only
    rw [← concern.appliesTo_silence differs, types, concern.appliesTo_silence differs]

/-- The attributes of a method count for that method alone, and for those that resemble it: every
other method is judged the same whatever they are. -/
theorem isWanted_setAttributes
    (made : Binder.ofModule env directories module world = (.ok binder, ended))
    (truthful : binder.scope.IsTruthful) (declared : module.types[typeIndex]? = some decl)
    (owned : decl.methods[methodIndex]? = some changed) (attributes : List TypeExpr) :
    ∃ other, Binder.ofModule env directories
        (module.setAttributes typeIndex methodIndex attributes) world = (.ok other, ended) ∧
      ∀ (method : Method), ¬ method.Resembles changed →
        ∀ (concern : Concern) (calls : List Binder.Call),
          (concern.isWanted method decl (binder.performAll calls)).1 =
            (concern.isWanted method (decl.setAttributes methodIndex attributes)
              (other.performAll calls)).1 := by
  have silenced := Module.mapMethods_setAttributes declared owned attributes
  obtain ⟨worlds, answers⟩ := Binder.ofModule_congr (Method.matches_silence changed) env
    directories world silenced
  rw [made] at worlds answers
  obtain ⟨other, madeOther, same⟩ := map_eq_ok_iff.mp answers
  refine ⟨other, Prod.ext madeOther worlds, ?_⟩
  intro method unlike concern calls
  have keeps := Member.keepsSignatures_silence changed.toMember
  obtain ⟨upholds, held⟩ := Binder.goesAlike_performAll made truthful calls
  apply concern.isWanted_congr upholds held ?_ unlike
  rw [← Binder.performAll_mapMembers keeps, ← Binder.performAll_mapMembers keeps, same]

end Concern

namespace Sample

/-- A conversion of a type to another one. -/
def conversion (returns : String) : Method where
  name := "op_Implicit"
  returns := .named returns
  isStatic := true
  parameters := [⟨"value", .named "App.T"⟩]

def run : Method where
  name := "Run"
  parameters := [⟨"value", .named "App.T"⟩]

/-- A type that wants its methods to be logged. -/
def converter : TypeDecl where
  space := "App"
  name := "T"
  attributes := [.named Concern.logging.enabling]
  methods := [conversion "System.String", conversion "System.Object", run]

/-- The module in which the first conversion is not to be logged. -/
def withQuietConversion : Module :=
  (app [converter]).setAttributes 0 0 [.named Concern.logging.disabling]

end Sample

namespace Concern

/-- A method that is no conversion stays logged. -/
theorem isWanted_setAttributes_run :
    ∃ binder, Binder.ofModule (Sample.library "Lib") [] (Sample.app [Sample.converter]) () =
        (.ok binder, ()) ∧ binder.scope.IsTruthful ∧
      (logging.isWanted Sample.run Sample.converter binder).1 = true ∧
      ∃ other, Binder.ofModule (Sample.library "Lib") [] Sample.withQuietConversion () =
          (.ok other, ()) ∧
        (logging.isWanted Sample.run (Sample.converter.setAttributes 0
          [.named Concern.logging.disabling]) other).1 = true := by
  have succeeds :
      (Binder.ofModule (Sample.library "Lib") [] (Sample.app [Sample.converter])
        ()).1.toOption.any
          (fun binder => (logging.isWanted Sample.run Sample.converter binder).1) = true := by
    decide +kernel
  obtain ⟨binder, made, wanted⟩ := exists_eq_ok_of_any succeeds
  have made : Binder.ofModule (Sample.library "Lib") [] (Sample.app [Sample.converter]) () =
      (.ok binder, ()) := Prod.ext made rfl
  obtain ⟨truthful, _⟩ := Sample.scope_app made (by decide +kernel)
  have declared : (Sample.app [Sample.converter]).types[0]? = some Sample.converter := rfl
  have owned : Sample.converter.methods[0]? = some (Sample.conversion "System.String") := rfl
  obtain ⟨other, madeOther, same⟩ := isWanted_setAttributes made truthful declared owned
    [.named Concern.logging.disabling]
  have alike := same Sample.run (by decide +kernel) logging []
  exact ⟨binder, made, truthful, wanted, other, madeOther, alike.symm.trans wanted⟩

/-- Two conversions that differ in what they return. The attribute that forbids logging the first
keeps the second from being logged. -/
theorem isWanted_of_conversion :
    (Sample.converter.methods.Pairwise fun method other =>
        ¬ (method.SameSignature other ∧ method.returns = other.returns)) ∧
      (∃ binder, Binder.ofModule (Sample.library "Lib") [] (Sample.app [Sample.converter]) () =
          (.ok binder, ()) ∧
        (logging.isWanted (Sample.conversion "System.Object") Sample.converter binder).1 = true) ∧
      ∃ binder, Binder.ofModule (Sample.library "Lib") [] Sample.withQuietConversion () =
          (.ok binder, ()) ∧
        (logging.isWanted (Sample.conversion "System.Object") (Sample.converter.setAttributes 0
          [.named Concern.logging.disabling]) binder).1 = false := by
  have before :
      (Binder.ofModule (Sample.library "Lib") [] (Sample.app [Sample.converter])
        ()).1.toOption.any (fun binder =>
          (logging.isWanted (Sample.conversion "System.Object") Sample.converter binder).1) =
            true := by
    decide +kernel
  have after :
      (Binder.ofModule (Sample.library "Lib") [] Sample.withQuietConversion
        ()).1.toOption.any (fun binder =>
          !(logging.isWanted (Sample.conversion "System.Object") (Sample.converter.setAttributes 0
            [.named Concern.logging.disabling]) binder).1) = true := by
    decide +kernel
  obtain ⟨binder, made, wanted⟩ := exists_eq_ok_of_any before
  obtain ⟨other, madeOther, unwanted⟩ := exists_eq_ok_of_any after
  refine ⟨by decide +kernel, ⟨binder, Prod.ext made rfl, wanted⟩, other, Prod.ext madeOther rfl, ?_⟩
  simpa using unwanted

end Concern

end Splice
