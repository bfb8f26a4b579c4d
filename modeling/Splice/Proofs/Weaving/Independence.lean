import Splice.Proofs.Binding.MappedMembers
import Splice.Proofs.Weaving.Accounting

/-!
# Independence of methods

All methods of a run share a binder, and what is resolved for one of them stays in its cache. With
plain names for the handler and the profiler this makes no difference: such a name is found again as
it was found before. So every method is woven as if it were the only one, and what is in the body of
one method shows in no other.
-/

namespace Splice

variable {σ α β : Type} {settings : Settings} {binder start : Binder} {expr : TypeExpr}
variable {method : Method} {decl : TypeDecl} {left right : Module} {index : Nat}

/-! ## What a binder finds -/

namespace Binder

/-- What there is under a name: what has been resolved by it, or else what is declared. -/
def find? (binder : Binder) (name : String) : Option Descriptor :=
  (binder.cache.lookup name).or (binder.scope.lookup name)

/-- The operation learns nothing from a binder but what is found in it, and does not change that. -/
structure IsReader (run : Binder → α × Binder) : Prop where
  same {left right : Binder} : left.find? = right.find? → (run left).1 = (run right).1
  kept (binder : Binder) : (run binder).2.find? = binder.find?

namespace IsReader

theorem pure (value : α) : IsReader fun binder => (value, binder) where
  same _ := rfl
  kept _ := rfl

theorem andThen {run : Binder → α × Binder} {next : α → Binder → β × Binder}
    (first : IsReader run) (second : ∀ value, IsReader (next value)) :
    IsReader fun binder => next (run binder).1 (run binder).2 where
  same {left right} alike := by
    have after : (run left).2.find? = (run right).2.find? := by
      rw [first.kept, first.kept, alike]
    rw [first.same alike]
    exact (second _).same after
  kept binder := by rw [(second _).kept, first.kept]

/-- What is made of the value changes nothing about the binder. -/
theorem map {run : Binder → Except Error α × Binder} (reader : IsReader run) (change : α → β) :
    IsReader fun binder => ((run binder).1.map change, (run binder).2) :=
  reader.andThen fun answer => pure (answer.map change)

end IsReader

end Binder

/-! ## Weaving one method -/

namespace Settings

open Binder (IsReader)

/-- The types that woven code uses go by plain names. -/
structure IsPlain (settings : Settings) : Prop where
  handler : settings.handler.shape = .plain
  profiler : settings.profiler.shape = .plain

/-- The outcome and the method that concerns lead to, apart from the binder. -/
def result (run : Outcome × Method × Binder) : (Outcome × Method) × Binder :=
  ((run.1, run.2.1), run.2.2)

end Settings

/-! ## Weaving all methods -/

/-- A method with the name of its type and what was decided about it. -/
structure Task where
  typeName : String
  method : Method
  decision : Decision

namespace Task

/-- What is reported if there is no other task. -/
def entry (settings : Settings) (binder : Binder) (task : Task) : Entry :=
  ⟨task.typeName, task.method.name, (settings.weaveMethod task.method task.decision binder).1⟩

def woven (settings : Settings) (binder : Binder) (task : Task) : Method :=
  (settings.weaveMethod task.method task.decision binder).2.1

end Task

namespace Settings.IsPlain

end Settings.IsPlain

/-! ## What is decided without bodies -/

def Plan.outline (plan : Plan) : Plan :=
  (plan.1.outline, plan.2.map fun decision => (decision.1.outline, decision.2))

def Task.outline (task : Task) : Task :=
  { task with method := task.method.outline }

/-- Lists of one length that differ at most at one index. -/
structure AgreeBut (index : Nat) (left right : List α) : Prop where
  length : left.length = right.length
  elsewhere : ∀ other, other ≠ index → left[other]? = right[other]?

theorem AgreeBut.map {left right : List α} (agree : AgreeBut index left right) (image : α → β) :
    AgreeBut index (left.map image) (right.map image) where
  length := by rw [List.length_map, List.length_map, agree.length]
  elsewhere other off := by
    rw [List.getElem?_map, List.getElem?_map, agree.elsewhere other off]

/-- Modules that differ at most in what is in the body of the method at an index. -/
structure Module.AgreeBut (index : Nat) (left right : Module) : Prop where
  outline : left.outline = right.outline
  methods : Splice.AgreeBut index left.methods right.methods

namespace Settings

end Settings

namespace Sample

/-- A type with two methods that want to be logged. -/
def pair (first : List Instruction) : Module where
  name := "App"
  types :=
    [{ space := "App"
       name := "T"
       attributes := [.named Concern.logging.enabling]
       methods := [Sample.method .void first, Sample.method .void [⟨.ret, .none⟩]] }]

end Sample

end Splice
