import Splice.Weaving.Settings
import Splice.Weaving.Report

/-!
# Weaving a module

A run over a module decides about every method first and then weaves the methods one by one, logging
before profiling, so that a method with both also measures its handler. A method that fails is
reported and keeps what was woven into it before.
-/

namespace Splice

variable {σ τ : Type}

/-- The concerns to weave into a method, or why there are none. -/
abbrev Decision := Except SkipReason (List Concern)

namespace Settings

/-- Whether logging is to be woven into a method. -/
def logs (settings : Settings) (method : Method) (decl : TypeDecl) (binder : Binder) :
    Bool × Binder :=
  if settings.logging then
    let (wanted, binder) := Concern.logging.isWanted method decl binder
    (wanted || (settings.includeTestMethods && method.hasAttribute settings.testMethodAttribute),
      binder)
  else (false, binder)

/-- Whether profiling is to be woven into a method. -/
def profiles (settings : Settings) (method : Method) (decl : TypeDecl) (binder : Binder) :
    Bool × Binder :=
  if settings.profiling then
    if settings.filterProfiling then Concern.profiling.isWanted method decl binder
    else (true, binder)
  else (false, binder)

def decide (settings : Settings) (method : Method) (decl : TypeDecl) (binder : Binder) :
    Decision × Binder :=
  if decl.isAnonymous then (.error .anonymousType, binder)
  else if !method.hasBody then (.error .noBody, binder)
  else
    let (logs, binder) := settings.logs method decl binder
    let (profiles, binder) := settings.profiles method decl binder
    let concerns := (if logs then [.logging] else []) ++ (if profiles then [.profiling] else [])
    (if concerns.isEmpty then .error .notEligible else .ok concerns, binder)

/-- Decide about the methods of a type. -/
def decideAll (settings : Settings) (decl : TypeDecl) :
    List Method → Binder → List (Method × Decision) × Binder
  | [], binder => ([], binder)
  | method :: rest, binder =>
    let (decision, binder) := settings.decide method decl binder
    let (decisions, binder) := settings.decideAll decl rest binder
    ((method, decision) :: decisions, binder)

/-- Decide about the methods of all types. -/
def plan (settings : Settings) :
    List TypeDecl → Binder → List (TypeDecl × List (Method × Decision)) × Binder
  | [], binder => ([], binder)
  | decl :: rest, binder =>
    let (decisions, binder) := settings.decideAll decl decl.methods binder
    let (plans, binder) := settings.plan rest binder
    ((decl, decisions) :: plans, binder)

/-- Weave concerns into a method up to the first that fails. -/
def weaveConcerns (settings : Settings) (applied : List Concern) :
    List Concern → Method → Binder → Outcome × Method × Binder
  | [], method, binder => (.woven applied, method, binder)
  | concern :: rest, method, binder =>
    match method.wrap (settings.wrapFor concern) binder with
    | (.error error, binder) => (.failed applied concern error, method, binder)
    | (.ok method, binder) =>
      settings.weaveConcerns (applied ++ [concern]) rest method binder

/-- Do to a method what was decided. -/
def weaveMethod (settings : Settings) (method : Method) (decision : Decision) (binder : Binder) :
    Outcome × Method × Binder :=
  match decision with
  | .error reason => (.skipped reason, method, binder)
  | .ok concerns => settings.weaveConcerns [] concerns method binder

/-- Do to the methods of a type what was decided. -/
def weaveMethods (settings : Settings) (typeName : String) :
    List (Method × Decision) → Binder → Report × List Method × Binder
  | [], binder => ([], [], binder)
  | (method, decision) :: rest, binder =>
    let (outcome, woven, binder) := settings.weaveMethod method decision binder
    let (report, methods, binder) := settings.weaveMethods typeName rest binder
    (⟨typeName, method.name, outcome⟩ :: report, woven :: methods, binder)

/-- Do to all types what was decided. -/
def weaveTypes (settings : Settings) :
    List (TypeDecl × List (Method × Decision)) → Binder → Report × List TypeDecl × Binder
  | [], binder => ([], [], binder)
  | (decl, decisions) :: rest, binder =>
    let (report, methods, binder) := settings.weaveMethods decl.fullName decisions binder
    let (reports, decls, binder) := settings.weaveTypes rest binder
    (report ++ reports, { decl with methods } :: decls, binder)

/-- Weave a module. If the run cannot start, the module stays as it was. -/
def weave (settings : Settings) (env : Environment σ) (module : Module) (world : σ) :
    Except Error Report × Module × σ :=
  match Binder.ofModule env settings.directories module world with
  | (.error error, world) => (.error error, module, world)
  | (.ok binder, world) =>
    let (plans, binder) := settings.plan module.types binder
    let (report, types, _) := settings.weaveTypes plans binder
    (.ok report, { module with types }, world)

/-- Weave a module and hand it to a writer with a state of its own. -/
def weaveAndSave (settings : Settings) (env : Environment σ)
    (save : Module → τ → Except Error Unit × τ) (module : Module) (world : σ) (store : τ) :
    Except Error Report × Module × σ × τ :=
  match settings.weave env module world with
  | (.error error, module, world) => (.error error, module, world, store)
  | (.ok report, module, world) =>
    let (saved, store) := save module store
    (saved.map fun _ => report, module, world, store)

end Settings

end Splice
