import Splice.Proofs.Binding.Methods
import Splice.Proofs.Binding.SelfReference

/-!
# Matching methods with members

A descriptor has the types of a member's parameters by the names by which the module refers to them.
A method is matched by the full names of its parameter types once they are resolved. Where no blank
stands next to the arguments of a definition these names are the same, and a method whose type is
described is never left without a member. A blank behind a comma is dropped when the argument is
resolved, but it stays in the member.
-/

namespace Splice

variable {σ : Type} {env : Environment σ} {directories : List String} {module : Module}
variable {world ended : σ} {binder : Binder} {type : Descriptor} {exprs : List TypeExpr}
variable {decl : TypeDecl} {method : Method}

/-- The member has what a method is matched by, apart from the types of the parameters. -/
structure Method.IsMatchedBy (method : Method) (member : Member) : Prop where
  name : member.name = method.name
  kind : member.kind = method.toMember.kind
  isStatic : member.isStatic = method.isStatic

namespace Binder

/-- A method of a described type has a member with the names of its parameter types. -/
theorem exists_memberOf? (members : type.members = decl.methods.map Method.toMember)
    (listed : method ∈ decl.methods) :
    ∃ member, memberOf? type method (method.parameters.map (·.type.key)) = some member ∧
      method.IsMatchedBy member := by
  cases found : memberOf? type method (method.parameters.map (·.type.key)) with
  | none =>
      have own : method.toMember ∈ type.members := by
        rw [members]
        exact List.mem_map_of_mem listed
      have rejected := List.find?_eq_none.mp found method.toMember own
      simp [Method.toMember] at rejected
  | some member =>
      have accepted := List.find?_some found
      simp only [Bool.and_eq_true, beq_iff_eq] at accepted
      obtain ⟨⟨⟨name, kind⟩, isStatic⟩, _⟩ := accepted
      exact ⟨member, rfl, name, kind, isStatic⟩

/-- Types that resolve each on their own are also found one after the other, if they read back. -/
theorem exists_fst_requireNames (calls : List (Bool × TypeExpr))
    (callsRead : ∀ call ∈ calls, call.2.ReadsBack) (reads : ∀ expr ∈ exprs, expr.ReadsBack)
    (resolves : ∀ expr ∈ exprs, ∃ type, (binder.resolve true expr).1 = .ok (some type)) :
    ∃ types : List Descriptor,
      List.Forall₂ (fun expr type => (binder.resolve true expr).1 = .ok (some type)) exprs types ∧
        ((binder.resolveAll calls).requireNames exprs).1 = .ok (types.map (·.fullName)) := by
  induction exprs generalizing calls with
  | nil => exact ⟨[], .nil, rfl⟩
  | cons expr rest ih =>
      obtain ⟨exprReads, restRead⟩ := List.forall_mem_cons.mp reads
      obtain ⟨⟨type, resolved⟩, restResolves⟩ := List.forall_mem_cons.mp resolves
      have shallow : (binder.resolve true expr).1 ≠ .error (.tooDeep Scope.depthLimit) := by
        rw [resolved]
        exact nofun
      have later := binder.resolve_resolveAll calls callsRead true expr exprReads shallow
      have extended : ∀ call ∈ calls ++ [(true, expr)], call.2.ReadsBack :=
        List.forall_mem_append.mpr ⟨callsRead, List.forall_mem_singleton.mpr exprReads⟩
      have after : binder.resolveAll (calls ++ [(true, expr)]) =
          ((binder.resolveAll calls).resolve true expr).2 := resolveAll_append ..
      obtain ⟨types, others, required⟩ := ih _ extended restRead restResolves
      rw [after] at required
      refine ⟨type :: types, .cons resolved others, ?_⟩
      rw [fst_requireNames_cons, fst_require, later, resolved]
      dsimp only
      rw [required]
      rfl

/-- A method of a described type is left without a member only if the types of its parameters cannot
be required, and these are written without blanks next to arguments. -/
theorem exists_fst_resolveMethod (upholds : binder.scope.Upholds (GoesByGood TypeName.IsTight))
    (held : binder.cache.Holds (GoesByGood TypeName.IsTight))
    (resolved : (binder.resolve false decl.toExpr).1 = .ok (some type))
    (members : type.members = decl.methods.map Method.toMember) (listed : method ∈ decl.methods)
    (tight : ∀ parameter ∈ method.parameters, TypeName.IsTight parameter.type.key.toList) :
    ∃ member, method.IsMatchedBy member ∧
      (binder.resolveMethod method decl).1 =
        ((binder.resolve false decl.toExpr).2.requireNames
          (method.parameters.map (·.type))).1.map fun _ => some (type, member) := by
  obtain ⟨member, found, isMatched⟩ := exists_memberOf? members listed
  refine ⟨member, isMatched, ?_⟩
  rw [fst_resolveMethod_of_resolve resolved]
  have upheld : (binder.resolve false decl.toExpr).2.scope.Upholds (GoesByGood TypeName.IsTight) :=
    upholds
  have heldAfter := (keeps_resolve upholds held false decl.toExpr).holds
  cases required : ((binder.resolve false decl.toExpr).2.requireNames
    (method.parameters.map (·.type))).1 with
  | error error => rfl
  | ok names =>
      have keys := eq_keys_of_requireNames upheld heldAfter (List.forall_mem_map.mpr tight) required
      rw [List.map_map] at keys
      rw [keys]
      exact congrArg (fun found => Except.ok (found.map (type, ·))) found

/-- In every state of a binder, a method of a type that is found as the module describes it is
resolved with a member of its name, kind and staticness, unless a type of its parameters is missing.
None is missing if each of them reads back and resolves on its own. The types are written without
blanks next to arguments. -/
theorem resolveMethod_matches (made : ofModule env directories module world = (.ok binder, ended))
    (truthful : binder.scope.IsTruthful) (calls : List Call)
    (resolved : ((binder.performAll calls).resolve false decl.toExpr).1 = .ok (some type))
    (described : decl.IsDescribedBy module.name type) (listed : method ∈ decl.methods)
    (tight : ∀ parameter ∈ method.parameters, TypeName.IsTight parameter.type.key.toList) :
    ∃ member, method.IsMatchedBy member ∧
      ((binder.performAll calls).resolveMethod method decl).1 =
        (((binder.performAll calls).resolve false decl.toExpr).2.requireNames
          (method.parameters.map (·.type))).1.map (fun _ => some (type, member)) ∧
      ((∀ parameter ∈ method.parameters, parameter.type.ReadsBack ∧ ∃ found,
          ((binder.performAll calls).resolve true parameter.type).1 = .ok (some found)) →
        ((binder.performAll calls).resolveMethod method decl).1 = .ok (some (type, member))) := by
  have upholds (own : Assembly) :
      ({ binder.scope with own } : Scope).Upholds (GoesByGood TypeName.IsTight) := by
    have truthfulWith : ({ binder.scope with own } : Scope).IsTruthful := truthful
    exact truthfulWith.upholds_goesByGood (fun _ tight => tight) fun _ _ part tight =>
      tight.infix part
  have held := cache_holds_performAll made upholds calls
  have upheld : (binder.performAll calls).scope.Upholds (GoesByGood TypeName.IsTight) := by
    rw [scope_performAll]
    exact upholds binder.scope.own
  obtain ⟨member, isMatched, matched⟩ :=
    exists_fst_resolveMethod upheld held resolved described.members listed tight
  refine ⟨member, isMatched, matched, ?_⟩
  intro parameters
  have named : ∀ call ∈ [(false, decl.toExpr)], call.2.ReadsBack :=
    List.forall_mem_singleton.mpr (.named decl.fullName)
  have reads : ∀ expr ∈ method.parameters.map (·.type), expr.ReadsBack :=
    List.forall_mem_map.mpr fun parameter member => (parameters parameter member).1
  obtain ⟨types, _, required⟩ := exists_fst_requireNames _ named reads
    (List.forall_mem_map.mpr fun parameter member => (parameters parameter member).2)
  have after : (binder.performAll calls).resolveAll [(false, decl.toExpr)] =
      ((binder.performAll calls).resolve false decl.toExpr).2 := rfl
  rw [matched, ← after, required]
  rfl

/-- What is not known yet is kept once it is resolved. -/
theorem fst_resolve_of_unknown {strict : Bool} {expr : TypeExpr}
    (unknown : binder.cache.lookup expr.key = none) :
    (binder.resolve strict expr).1 = (Scope.keep strict expr.key
      (binder.scope.resolveParts (binder.scope.resolveWithin strict 99) expr binder.cache)).1 :=
  congrArg Prod.fst (Scope.resolveWithin_of_unknown unknown)

end Binder

namespace Sample

/-- A method with a pair as its parameter. -/
def pairing (name pair : String) : Method where
  name := name
  parameters := [⟨"pair", .named pair⟩]

def dense : Method := pairing "Dense" "Pair`2<T,T>"

/-- The parameter is of the same type, with a blank behind the comma. -/
def spaced : Method := pairing "Spaced" "Pair`2<T, T>"

def pairDecl : TypeDecl where
  name := "Pair`2"

def paired : TypeDecl where
  name := "T"
  methods := [dense, spaced]

def pairs : Module where
  name := "App"
  types := [pairDecl, paired]

def pairBinder : Binder where
  scope :=
    ⟨fun _ => none,
      ⟨"App", [.declared (paired.header "App") none, .declared (pairDecl.header "App") none]⟩, []⟩

theorem ofModule_pairs :
    Binder.ofModule (library "Other") [] pairs () = (.ok pairBinder, ()) := by
  have ready (binder : Binder) : binder.describeReady [pairDecl, paired] =
      ([], (binder.declare pairDecl none).declare paired none) := rfl
  rw [Binder.ofModule]
  dsimp only [pairs, Environment.dependencies]
  rw [Binder.describe, ready]
  dsimp only [List.length_cons, List.length_nil, Nat.zero_add, Nat.zero_lt_succ, if_true]
  rw [Binder.describe]
  rfl

theorem resolve_paired : ∃ type,
    (pairBinder.resolve false paired.toExpr).1 = .ok (some type) ∧
      paired.IsDescribedBy pairs.name type := by
  have found : (pairBinder.resolve false paired.toExpr).1.toOption.any
      (·.any fun type => decide (paired.IsDescribedBy pairs.name type)) = true := by decide +kernel
  obtain ⟨type?, resolved, described⟩ := exists_eq_ok_of_any found
  obtain ⟨type, rfl, described⟩ := (Option.any_eq_true ..).mp described
  exact ⟨type, resolved, of_decide_eq_true described⟩

/-- What is read as a pair resolves to the same type, whatever blanks are in the name. -/
theorem resolve_pair (name key : String) (written : (TypeExpr.named name).key = key)
    (unmodified : TypeName.splitModifier key.toList = none)
    (split : TypeName.splitApplication key.toList =
      some ("Pair`2".toList, ["T".toList, "T".toList]))
    (found : (Scope.keep true key (Scope.resolveApplication
      (pairBinder.scope.resolveWithin true 99) (.named "Pair`2") [.named "T", .named "T"]
        [])).1.toOption.any (·.any (·.fullName == "Pair`2[T,T]")) = true) :
    ∃ type, (pairBinder.resolve true (.named name)).1 = .ok (some type) ∧
      type.fullName = "Pair`2[T,T]" := by
  have argument : TypeName.read id "T".toList = .named "T" :=
    TypeName.read_of_leaf (by decide +kernel) (by decide +kernel)
  have shape : (TypeExpr.named name).shape =
      .application (.named "Pair`2") [.named "T", .named "T"] := by
    have read := TypeExpr.shapeOfName_of_application unmodified split
    rw [List.map_cons, List.map_singleton, argument, String.ofList_toList, ← written] at read
    exact read
  have unknown : pairBinder.cache.lookup (TypeExpr.named name).key = none := rfl
  obtain ⟨type?, resolved, named⟩ := exists_eq_ok_of_any found
  obtain ⟨type, rfl, named⟩ := (Option.any_eq_true ..).mp named
  refine ⟨type, ?_, beq_iff_eq.mp named⟩
  rw [Binder.fst_resolve_of_unknown unknown, Scope.resolveParts, shape, written]
  exact resolved

end Sample

namespace Binder

theorem resolveMethod_matches_dense :
    ∃ type member, (Sample.pairBinder.resolve false Sample.paired.toExpr).1 = .ok (some type) ∧
      Sample.paired.IsDescribedBy "App" type ∧ Sample.dense.IsMatchedBy member ∧
      (Sample.pairBinder.resolveMethod Sample.dense Sample.paired).1 =
        .ok (some (type, member)) := by
  obtain ⟨type, resolved, described⟩ := Sample.resolve_paired
  obtain ⟨found, required, _⟩ := Sample.resolve_pair "Pair`2<T,T>" "Pair`2[T,T]"
    (by decide +kernel) (by decide +kernel) (by decide +kernel) (by decide +kernel)
  have tight : ∀ parameter ∈ Sample.dense.parameters,
      TypeName.IsTight parameter.type.key.toList := by decide +kernel
  obtain ⟨member, isMatched, _, matched⟩ := resolveMethod_matches Sample.ofModule_pairs nofun []
    resolved described List.mem_cons_self tight
  exact ⟨type, member, resolved, described, isMatched,
    matched (List.forall_mem_singleton.mpr ⟨.named _, found, required⟩)⟩

/-- With a blank behind a comma the type of the parameter resolves, but the method has no member. -/
theorem resolveMethod_of_blank :
    ofModule (Sample.library "Other") [] Sample.pairs () = (.ok Sample.pairBinder, ()) ∧
      Sample.paired ∈ Sample.pairs.types ∧ Sample.spaced ∈ Sample.paired.methods ∧
      (∃ type, (Sample.pairBinder.resolve false Sample.paired.toExpr).1 = .ok (some type) ∧
        Sample.paired.IsDescribedBy "App" type) ∧
      (∀ parameter ∈ Sample.spaced.parameters, ∃ type,
        (Sample.pairBinder.resolve true parameter.type).1 = .ok (some type)) ∧
      (Sample.pairBinder.resolveMethod Sample.spaced Sample.paired).1 = .ok none := by
  obtain ⟨type, resolved, described⟩ := Sample.resolve_paired
  obtain ⟨found, required, named⟩ := Sample.resolve_pair "Pair`2<T, T>" "Pair`2[T, T]"
    (by decide +kernel) (by decide +kernel) (by decide +kernel) (by decide +kernel)
  refine ⟨Sample.ofModule_pairs, .tail _ (.head _), .tail _ (.head _),
    ⟨type, resolved, described⟩, List.forall_mem_singleton.mpr ⟨found, required⟩, ?_⟩
  have typeRead : ∀ call ∈ [(false, Sample.paired.toExpr)], call.2.ReadsBack :=
    List.forall_mem_singleton.mpr (.named _)
  have reads : ∀ expr ∈ Sample.spaced.parameters.map (·.type), expr.ReadsBack :=
    List.forall_mem_singleton.mpr (.named _)
  obtain ⟨types, each, names⟩ := exists_fst_requireNames _ typeRead
    reads (List.forall_mem_singleton.mpr ⟨found, required⟩)
  have after : Sample.pairBinder.resolveAll [(false, Sample.paired.toExpr)] =
      (Sample.pairBinder.resolve false Sample.paired.toExpr).2 := rfl
  cases each with
  | cons answered rest =>
      cases rest
      cases Except.ok.inj (required.symm.trans answered)
      rw [after, List.map_singleton, named] at names
      have unmatched : (Sample.paired.methods.map Method.toMember).find? (fun member =>
          member.name == Sample.spaced.name && member.kind == Sample.spaced.toMember.kind &&
            member.isStatic == Sample.spaced.isStatic &&
            member.parameters == ["Pair`2[T,T]"]) = none := by decide +kernel
      rw [← described.members] at unmatched
      rw [fst_resolveMethod_of_resolve resolved, names]
      exact congrArg (fun member => Except.ok (member.map (type, ·))) unmatched

end Binder

end Splice
