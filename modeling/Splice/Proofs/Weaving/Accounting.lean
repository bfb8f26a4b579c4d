import Splice.Proofs.Weaving.Sequence
import Splice.Weaving.Weave

/-!
# Accounting for a run

A weaving run either does not start, or it reports on every method in the order of the module. The
report tells what became of each method: nothing, or the wraps of the concerns that were applied to
it. Nothing else in the module changes.
-/

namespace Splice

variable {σ : Type} {settings : Settings} {method original woven : Method} {decl : TypeDecl}
variable {wrap : Wrap} {done rest : List Wrap} {binder start between after : Binder}
variable {applied concerns : List Concern} {outcome : Outcome}

/-! ## What stays of a module -/

/-- The method with nothing said about its body but that there is one. -/
def Method.outline (method : Method) : Method :=
  { method with body := method.body.map fun _ => Body.empty }

def TypeDecl.outline (decl : TypeDecl) : TypeDecl :=
  { decl with methods := decl.methods.map Method.outline }

namespace Module

/-- Everything in the module apart from what is in the bodies. -/
def outline (module : Module) : Module :=
  { module with types := module.types.map TypeDecl.outline }

def methods (module : Module) : List Method :=
  module.types.flatMap (·.methods)

/-- The name of every method behind that of its type. -/
def methodNames (module : Module) : List (String × String) :=
  module.types.flatMap fun decl => decl.methods.map fun method => (decl.fullName, method.name)

theorem outline_of_types {module : Module} {types : List TypeDecl}
    (outlines : types.map TypeDecl.outline = module.types.map TypeDecl.outline) :
    ({ module with types } : Module).outline = module.outline :=
  congrArg (fun types => ({ module with types } : Module)) outlines

theorem length_methods (module : Module) : module.methods.length = module.methodCount := rfl

end Module

theorem Method.outline_wrap (wraps : method.wrap wrap binder = (.ok woven, after)) :
    woven.outline = method.outline := by
  rw [Method.wrap] at wraps
  split at wraps
  next =>
    cases wraps
    rfl
  next body bodied =>
    obtain ⟨changed, _, rfl⟩ := map_eq_ok_iff.mp (congrArg Prod.fst wraps)
    simp only [outline, bodied, Option.map_some]

theorem Method.outline_wrapAll (wraps : method.wrapAll done start = (.ok woven, after)) :
    woven.outline = method.outline := by
  induction done generalizing method start with
  | nil =>
      cases wraps
      rfl
  | cons wrap rest ih =>
      rw [wrapAll] at wraps
      split at wraps
      next => cases wraps
      next first between here => exact (ih wraps).trans (outline_wrap here)

theorem Method.wrapAll_append (wraps : method.wrapAll done start = (.ok woven, between)) :
    method.wrapAll (done ++ rest) start = woven.wrapAll rest between := by
  induction done generalizing method start with
  | nil =>
      cases wraps
      rfl
  | cons wrap done ih =>
      rw [wrapAll] at wraps
      rw [List.cons_append, wrapAll]
      split at wraps
      next => cases wraps
      next => exact ih wraps

/-! ## What a run does -/

/-- A type with what was decided about its methods. -/
abbrev Plan := TypeDecl × List (Method × Decision)

namespace Settings

/-- The concerns come in the order in which they are woven. -/
def IsOrdered (concerns : List Concern) : Prop :=
  concerns.Sublist [.logging, .profiling]

/-- What a run makes of a method, by the outcome that it reports. A concern that fails leaves the
method as the concerns before it have made it, and those after it are not tried. -/
inductive Yields (settings : Settings) (start : Binder) (method : Method) :
    Outcome → Method → Binder → Prop where
  | skipped (reason : SkipReason) : Yields settings start method (.skipped reason) method start
  | woven {applied : List Concern} {woven : Method} {after : Binder} : applied ≠ [] →
      IsOrdered applied →
      method.wrapAll (applied.map settings.wrapFor) start = (.ok woven, after) →
      Yields settings start method (.woven applied) woven after
  | failed {applied : List Concern} {concern : Concern} {error : Error} {woven : Method}
      {between after : Binder} : IsOrdered (applied ++ [concern]) →
      method.wrapAll (applied.map settings.wrapFor) start = (.ok woven, between) →
      woven.wrap (settings.wrapFor concern) between = (.error error, after) →
      Yields settings start method (.failed applied concern error) woven after

/-- What a run makes of methods one after the other. Each of them finds the binder that the one
before it has left. -/
inductive YieldsAll (settings : Settings) :
    Binder → List Method → List Outcome → List Method → Binder → Prop where
  | nil (binder : Binder) : YieldsAll settings binder [] [] [] binder
  | cons {start between after : Binder} {method woven : Method} {outcome : Outcome}
      {methods others : List Method} {outcomes : List Outcome} :
      settings.Yields start method outcome woven between →
      YieldsAll settings between methods outcomes others after →
      YieldsAll settings start (method :: methods) (outcome :: outcomes) (woven :: others) after

theorem Yields.outline (yields : settings.Yields start method outcome woven after) :
    woven.outline = method.outline := by
  cases yields with
  | skipped reason => rfl
  | woven _ _ wraps => exact Method.outline_wrapAll wraps
  | failed _ wraps _ => exact Method.outline_wrapAll wraps

namespace YieldsAll

variable {methods others left right : List Method} {outcomes more : List Outcome}

theorem outline (yields : settings.YieldsAll start methods outcomes others after) :
    others.map Method.outline = methods.map Method.outline := by
  induction yields with
  | nil => rfl
  | cons here _ ih => rw [List.map_cons, List.map_cons, here.outline, ih]

theorem length_outcomes (yields : settings.YieldsAll start methods outcomes others after) :
    outcomes.length = methods.length := by
  induction yields with
  | nil => rfl
  | cons _ _ ih => rw [List.length_cons, List.length_cons, ih]

theorem append (first : settings.YieldsAll start methods outcomes others between)
    (second : settings.YieldsAll between left more right after) :
    settings.YieldsAll start (methods ++ left) (outcomes ++ more) (others ++ right) after := by
  induction first with
  | nil => exact second
  | cons here _ ih => exact .cons here (ih second)

end YieldsAll

/-! ## Plans -/

/-- The decision leaves no method without a concern, and puts logging before profiling. -/
def IsInOrder (decision : Decision) : Prop :=
  ∀ concerns, decision = .ok concerns → concerns ≠ [] ∧ IsOrdered concerns

theorem isOrdered_wanted (logs profiles : Bool) :
    IsOrdered ((if logs then [.logging] else []) ++ (if profiles then [.profiling] else [])) := by
  cases logs <;> cases profiles <;> simp [IsOrdered]

/-- A method that wants nothing is skipped. -/
theorem isInOrder_of_isOrdered (ordered : IsOrdered concerns) :
    IsInOrder (if concerns.isEmpty then .error .notEligible else .ok concerns) := by
  intro chosen decided
  split at decided
  · cases decided
  next some =>
    cases decided
    exact ⟨by simpa using some, ordered⟩

theorem isInOrder_decide (settings : Settings) (method : Method) (decl : TypeDecl)
    (binder : Binder) : IsInOrder (settings.decide method decl binder).1 := by
  unfold decide
  split
  · exact nofun
  · split
    · exact nofun
    · exact isInOrder_of_isOrdered (isOrdered_wanted _ _)

/-- A plan for a type has a decision for each of its methods. -/
structure IsPlan (plan : Plan) : Prop where
  methods : plan.2.map Prod.fst = plan.1.methods
  inOrder : ∀ decision ∈ plan.2, IsInOrder decision.2

theorem isPlan_decideAll (settings : Settings) (decl : TypeDecl) (methods : List Method)
    (binder : Binder) : (settings.decideAll decl methods binder).1.map Prod.fst = methods ∧
      ∀ decision ∈ (settings.decideAll decl methods binder).1, IsInOrder decision.2 := by
  induction methods generalizing binder with
  | nil => exact ⟨rfl, nofun⟩
  | cons method rest ih =>
      obtain ⟨methods, inOrder⟩ := ih (settings.decide method decl binder).2
      exact ⟨congrArg (method :: ·) methods,
        List.forall_mem_cons.mpr ⟨settings.isInOrder_decide method decl binder, inOrder⟩⟩

theorem isPlan_plan (settings : Settings) (decls : List TypeDecl) (binder : Binder) :
    (settings.plan decls binder).1.map Prod.fst = decls ∧
      ∀ plan ∈ (settings.plan decls binder).1, IsPlan plan := by
  induction decls generalizing binder with
  | nil => exact ⟨rfl, nofun⟩
  | cons decl rest ih =>
      obtain ⟨decls, plans⟩ := ih (settings.decideAll decl decl.methods binder).2
      obtain ⟨methods, inOrder⟩ := settings.isPlan_decideAll decl decl.methods binder
      exact ⟨congrArg (decl :: ·) decls, List.forall_mem_cons.mpr ⟨⟨methods, inOrder⟩, plans⟩⟩

/-! ## Runs -/

/-- One more concern after those that have been applied. -/
theorem yields_weaveConcerns (nonempty : applied ++ concerns ≠ [])
    (ordered : IsOrdered (applied ++ concerns))
    (wraps : original.wrapAll (applied.map settings.wrapFor) start = (.ok method, binder)) :
    settings.Yields start original (settings.weaveConcerns applied concerns method binder).1
      (settings.weaveConcerns applied concerns method binder).2.1
      (settings.weaveConcerns applied concerns method binder).2.2 := by
  -- What has been applied grows at its end, along with the wraps from the original method.
  induction concerns generalizing applied method binder with
  | nil =>
      rw [List.append_nil] at nonempty ordered
      exact .woven nonempty ordered wraps
  | cons concern rest ih =>
      rw [List.append_cons] at nonempty ordered
      rw [weaveConcerns]
      split
      next error between fails =>
        exact .failed ((List.sublist_append_left ..).trans ordered) wraps fails
      next woven between wrapped =>
        apply ih nonempty ordered
        rw [List.map_append, Method.wrapAll_append wraps, List.map_singleton, Method.wrapAll,
          wrapped]
        rfl

theorem yields_weaveMethod {decision : Decision} (inOrder : IsInOrder decision) (method : Method)
    (binder : Binder) :
    settings.Yields binder method (settings.weaveMethod method decision binder).1
      (settings.weaveMethod method decision binder).2.1
      (settings.weaveMethod method decision binder).2.2 := by
  cases decision with
  | error reason => exact .skipped reason
  | ok concerns =>
      obtain ⟨nonempty, ordered⟩ := inOrder concerns rfl
      exact yields_weaveConcerns nonempty ordered rfl

/-- What is reported on the methods of a type. -/
theorem yieldsAll_weaveMethods {decisions : List (Method × Decision)}
    (inOrder : ∀ decision ∈ decisions, IsInOrder decision.2) (typeName : String)
    (binder : Binder) :
    let run := settings.weaveMethods typeName decisions binder
    settings.YieldsAll binder (decisions.map Prod.fst) (run.1.map (·.outcome)) run.2.1 run.2.2 ∧
      run.1.map (fun entry => (entry.typeName, entry.methodName)) =
        (decisions.map Prod.fst).map fun method => (typeName, method.name) := by
  induction decisions generalizing binder with
  | nil => exact ⟨.nil binder, rfl⟩
  | cons decision rest ih =>
      obtain ⟨here, later⟩ := List.forall_mem_cons.mp inOrder
      have first := settings.yields_weaveMethod here decision.1 binder
      obtain ⟨yields, names⟩ := ih later (settings.weaveMethod decision.1 decision.2 binder).2.2
      exact ⟨.cons first yields, congrArg ((typeName, decision.1.name) :: ·) names⟩

/-- What is reported on all types. -/
theorem yieldsAll_weaveTypes {plans : List Plan} (planned : ∀ plan ∈ plans, IsPlan plan) (binder : Binder) :
    let run := settings.weaveTypes plans binder
    settings.YieldsAll binder ((plans.map Prod.fst).flatMap (·.methods)) (run.1.map (·.outcome))
        (run.2.1.flatMap (·.methods)) run.2.2 ∧
      run.1.map (fun entry => (entry.typeName, entry.methodName)) =
        ((plans.map Prod.fst).flatMap fun decl =>
          decl.methods.map fun method => (decl.fullName, method.name)) ∧
      run.2.1.map TypeDecl.outline = (plans.map Prod.fst).map TypeDecl.outline := by
  induction plans generalizing binder with
  | nil => exact ⟨.nil binder, rfl, rfl⟩
  | cons plan rest ih =>
      obtain ⟨here, later⟩ := List.forall_mem_cons.mp planned
      obtain ⟨yields, names⟩ :=
        settings.yieldsAll_weaveMethods here.inOrder plan.1.fullName binder
      obtain ⟨yieldsRest, namesRest, outlines⟩ :=
        ih later (settings.weaveMethods plan.1.fullName plan.2 binder).2.2
      rw [here.methods] at yields names
      have outline : TypeDecl.outline { plan.1 with
          methods := (settings.weaveMethods plan.1.fullName plan.2 binder).2.1 } =
            plan.1.outline := by
        rw [TypeDecl.outline, TypeDecl.outline, yields.outline]
      refine ⟨?_, ?_, ?_⟩
      · rw [weaveTypes, List.map_append]
        exact yields.append yieldsRest
      · rw [weaveTypes, List.map_append, names, namesRest]
        rfl
      · rw [weaveTypes, List.map_cons, List.map_cons, List.map_cons, outline, outlines]

end Settings

/-- Every outcome is of one of the three kinds. -/
theorem Report.counts (report : Report) :
    report.wovenCount + report.skippedCount + report.failedCount = report.length := by
  induction report with
  | nil => rfl
  | cons entry rest ih =>
      have once : (if entry.outcome.isWoven = true then 1 else 0) +
          (if entry.outcome.isSkipped = true then 1 else 0) +
          (if entry.outcome.isFailed = true then 1 else 0) = 1 := by
        cases entry.outcome <;> rfl
      simp only [wovenCount, skippedCount, failedCount, List.countP_cons, List.length_cons] at ih ⊢
      omega

namespace Settings

/-- A run that does not start leaves the module as it is. Any other reports once on every method, in
the order of the module and under its name. Each method becomes what the report says: it is left
alone, or has the concerns applied to it that are listed, in their order. Apart from what is in the
bodies, nothing changes. -/
theorem weave_accounts (settings : Settings) (env : Environment σ) (module : Module) (world : σ) :
    match settings.weave env module world with
    | (.error error, final, ended) => final = module ∧
        Binder.ofModule env settings.directories module world = (.error error, ended)
    | (.ok report, final, ended) => ∃ binder last,
        Binder.ofModule env settings.directories module world = (.ok binder, ended) ∧
        report.map (fun entry => (entry.typeName, entry.methodName)) = module.methodNames ∧
        report.wovenCount + report.skippedCount + report.failedCount = module.methodCount ∧
        final.outline = module.outline ∧
        settings.YieldsAll (settings.plan module.types binder).2 module.methods
          (report.map (·.outcome)) final.methods last := by
  rw [weave]
  cases made : Binder.ofModule env settings.directories module world with
  | mk answer ended =>
      cases answer with
      | error error => exact ⟨rfl, rfl⟩
      | ok binder =>
          obtain ⟨decls, planned⟩ := settings.isPlan_plan module.types binder
          have run := settings.yieldsAll_weaveTypes planned (settings.plan module.types binder).2
          rw [decls] at run
          obtain ⟨yields, names, outlines⟩ := run
          refine ⟨binder, _, rfl, names, ?_, Module.outline_of_types outlines, yields⟩
          rw [Report.counts, ← module.length_methods, ← List.length_map (·.outcome)]
          exact yields.length_outcomes

end Settings

end Splice
