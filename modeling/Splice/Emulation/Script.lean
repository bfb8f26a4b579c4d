import Splice.Emulation.Recorder

/-!
# Scripted calls

A script fixes the answers to some members and leaves all others to the recorder. A scripted call is
not recorded.
-/

namespace Splice

/-- A value that may have to be allocated when it is used. -/
inductive Draft where
  | known (value : Value)
  | fresh (typeName : String)

namespace Draft

def realize (recorder : Recorder) : Draft → Value × Recorder
  | .known value => (value, recorder)
  | .fresh typeName => recorder.allocate typeName

/-- Realize several drafts from left to right. -/
def realizeAll (recorder : Recorder) : List Draft → List Value × Recorder
  | [] => ([], recorder)
  | draft :: rest =>
    let (value, recorder) := draft.realize recorder
    let (values, recorder) := realizeAll recorder rest
    (value :: values, recorder)

def realize? (recorder : Recorder) : Option Draft → Option Value × Recorder
  | none => (none, recorder)
  | some draft =>
    let (value, recorder) := draft.realize recorder
    (some value, recorder)

end Draft

/-- What a scripted call answers. -/
inductive Reply where
  | fault (text : String)
  | threw (exception : Draft)
  | returned (value : Option Draft)

/-- Answers by declaring type and member name. The first entry for a member counts. -/
abbrev Script := List ((String × String) × Reply)

namespace Script

def answer (recorder : Recorder) : Reply → Except Fault Completion × Recorder
  | .fault text => (.error (.reported text), recorder)
  | .threw exception =>
    let (value, recorder) := exception.realize recorder
    (.ok (.threw value), recorder)
  | .returned value =>
    let (value, recorder) := Draft.realize? recorder value
    (.ok (.returned value), recorder)

def reply? (script : Script) (member : MemberRef) : Option Reply :=
  script.lookup (member.declaring.text, member.name)

/-- The recorder with the scripted members taken out. -/
def host (script : Script) : Host Recorder where
  construct member arguments recorder :=
    match script.reply? member with
    | some reply => answer recorder reply
    | none => recorder.construct member arguments
  call member receiver arguments recorder :=
    match script.reply? member with
    | some reply => answer recorder reply
    | none => recorder.call member receiver arguments
  isInstance := Recorder.isInstance

end Script

end Splice
