import Splice.Emulation.Host
import Splice.Code.Body
import Splice.Code.Range

/-!
# Frames

The state of a running body, and the transfers of control that exception clauses decide: raising an
exception, leaving protected ranges and ending a finally handler.

Clauses are searched in table order, and handlers of clauses that are not catch clauses are run on
the way. What is to happen after such a handler waits on a stack of its own.
-/

namespace Splice

/-- A clause with its ranges as positions. -/
structure Region where
  clause : Clause
  guarded : Range
  handler : Range
  deriving DecidableEq, Inhabited

/-- What follows when a finally handler ends. -/
inductive Resumption where
  /-- Run the handlers of the remaining regions, then go on at the target. -/
  | leave (rest : List Region) (target : Nat)
  /-- Search on for a handler of the exception, from the region with index `next`. -/
  | unwind (exception : Value) (origin next : Nat)
  deriving DecidableEq, Inhabited

structure Frame where
  arguments : Array Value
  slots : Array Value
  /-- The evaluation stack, the top first. -/
  stack : List Value
  /-- The resumptions of the finally handlers being run, the last entered first. -/
  pending : List Resumption
  /-- The exception with which each region's catch handler was last entered. -/
  caught : List (Option Value)
  position : Nat
  deriving DecidableEq, Inhabited

/-- How a run goes on. -/
inductive Turn where
  | goOn (frame : Frame)
  | finish (completion : Completion)
  deriving DecidableEq, Inhabited

namespace Frame

def push (frame : Frame) (value : Value) : Frame :=
  { frame with stack := value :: frame.stack }

def pop (frame : Frame) : Except Fault (Value × Frame) :=
  match frame.stack with
  | value :: rest => .ok (value, { frame with stack := rest })
  | [] => .error (.stackUnderflow frame.position)

/-- Take several values. The last one pushed is the last of the answer. -/
def popMany (frame : Frame) (count : Nat) : Except Fault (List Value × Frame) :=
  if frame.stack.length < count then .error (.stackUnderflow frame.position)
  else .ok ((frame.stack.take count).reverse, { frame with stack := frame.stack.drop count })

def goTo (frame : Frame) (position : Nat) : Frame :=
  { frame with position }

def advance (frame : Frame) : Frame :=
  frame.goTo (frame.position + 1)

def argument (frame : Frame) (index : Nat) : Except Fault Value :=
  match frame.arguments[index]? with
  | some value => .ok value
  | none => .error (.missingArgument index)

def slotAt (frame : Frame) (index : Nat) : Except Fault Value :=
  match frame.slots[index]? with
  | some value => .ok value
  | none => .error (.missingSlot index)

def store (frame : Frame) (index : Nat) (value : Value) : Except Fault Frame :=
  if index < frame.slots.size then
    .ok { frame with slots := frame.slots.setIfInBounds index value }
  else .error (.missingSlot index)

/-- The exception that the first catch handler around the position was last entered with. -/
def currentException? (frame : Frame) (regions : List Region) : Option Value :=
  match (regions.zip frame.caught).find? fun (region, _) =>
      region.clause.isCatch && region.handler.contains frame.position with
  | some (_, caught) => caught
  | none => none

end Frame

namespace Region

/-- Whether an exception raised at `origin` enters the region's handler. -/
def intercepts (isInstance : TypeExpr → Bool) (origin : Nat) (region : Region) : Bool :=
  region.guarded.contains origin && (!region.clause.isCatch || region.clause.catchType.any isInstance)

/-- Whether going from one position to another runs the region's handler. -/
def isLeft (source target : Nat) (region : Region) : Bool :=
  !region.clause.isCatch && region.guarded.contains source && !region.guarded.contains target

end Region

namespace Frame

/-- Enter the handler of the next region that intercepts the exception. A catch handler starts with
the exception on the stack, any other with an empty stack and the rest of the search pending. -/
def unwind (frame : Frame) (regions : List Region) (isInstance : Value → TypeExpr → Bool)
    (exception : Value) (origin next : Nat) : Turn :=
  match (regions.zipIdx.drop next).find? fun (region, _) =>
      region.intercepts (isInstance exception) origin with
  | none => .finish (.threw exception)
  | some (region, index) =>
    if region.clause.isCatch then
      .goOn { frame with
        stack := [exception]
        caught := frame.caught.set index (some exception)
        position := region.handler.start }
    else
      .goOn { frame with
        stack := []
        pending := .unwind exception origin (index + 1) :: frame.pending
        position := region.handler.start }

/-- Raise an exception at the current position. -/
def raise (frame : Frame) (regions : List Region) (isInstance : Value → TypeExpr → Bool)
    (exception : Value) : Turn :=
  frame.unwind regions isInstance exception frame.position 0

/-- Run the handlers of the regions one after the other, then go on at the target. -/
def runHandlers (frame : Frame) (target : Nat) : List Region → Frame
  | [] => { frame with stack := [], position := target }
  | region :: rest =>
    { frame with
      stack := []
      pending := .leave rest target :: frame.pending
      position := region.handler.start }

/-- Go to a position by way of the handlers of all regions that are left. -/
def leave (frame : Frame) (regions : List Region) (target : Nat) : Frame :=
  frame.runHandlers target (regions.filter (·.isLeft frame.position target))

/-- Do what was to follow the finally handler last entered. -/
def endFinally (frame : Frame) (regions : List Region) (isInstance : Value → TypeExpr → Bool) :
    Except Fault Turn :=
  match frame.pending with
  | .leave rest target :: pending =>
    .ok (.goOn ({ frame with pending }.runHandlers target rest))
  | .unwind exception origin next :: pending =>
    .ok ({ frame with pending }.unwind regions isInstance exception origin next)
  | [] => .error (.endsFinallyOutside frame.position)

end Frame

end Splice
