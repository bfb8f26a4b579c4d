import Splice.Emulation.Fault

/-!
# Hosts

The world outside an emulated body. Every call, construction and type test goes to a host, which
keeps a state of its own.
-/

namespace Splice

/-- The operations of a host over its state. A call that faults may still have changed the state. -/
structure Host (σ : Type) where
  construct : MemberRef → List Value → σ → Except Fault Completion × σ
  call : MemberRef → Option Value → List Value → σ → Except Fault Completion × σ
  isInstance : σ → Value → TypeExpr → Bool

end Splice
