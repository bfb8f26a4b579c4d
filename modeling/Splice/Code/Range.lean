/-!
# Ranges of positions
-/

namespace Splice

/-- The positions from `start` up to, and without, `stop`. -/
structure Range where
  start : Nat
  stop : Nat
  deriving DecidableEq, Inhabited

namespace Range

def contains (range : Range) (position : Nat) : Bool :=
  range.start ≤ position && position < range.stop

def isDisjoint (left right : Range) : Bool :=
  left.stop ≤ right.start || right.stop ≤ left.start

def isWithin (inner outer : Range) : Bool :=
  outer.start ≤ inner.start && inner.stop ≤ outer.stop

/-- Two ranges nest when they are disjoint or one lies within the other. -/
def nests (left right : Range) : Bool :=
  left.isDisjoint right || right.isWithin left || left.isWithin right

end Range

end Splice
