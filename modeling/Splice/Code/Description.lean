import Splice.Code.Instruction
import Splice.Text.Quoted

/-!
# Descriptions of operands

The text of an operand in the message about an instruction that cannot take it. It spells out the
operand's structure, so that expressions of one text but different structure can be told apart.
-/

namespace Splice

/-- A record of named fields. -/
def recordText (name : String) (fields : List (String × String)) : String :=
  name ++ " \x7b " ++
    ", ".intercalate (fields.map fun (field, value) => field ++ ": " ++ value) ++ " \x7d"

def listText (items : List String) : String :=
  "[" ++ ", ".intercalate items ++ "]"

namespace TypeExpr

mutual

def description : TypeExpr → String
  | named name =>
    recordText "TypeRef" [("full_name", Text.quoted name), ("generic", "None")]
  | applied element arguments =>
    let instanceText := recordText "GenericInstance"
      [("element", element.description), ("arguments", listText (descriptions arguments))]
    recordText "TypeRef"
      [("full_name", Text.quoted (applied element arguments).text),
        ("generic", "Some(" ++ instanceText ++ ")")]

def descriptions : List TypeExpr → List String
  | [] => []
  | expr :: rest => expr.description :: descriptions rest

end

end TypeExpr

def MemberRef.description (member : MemberRef) : String :=
  recordText "MethodRef"
    [("declaring_type", member.declaring.description),
      ("name", Text.quoted member.name),
      ("parameters", listText (member.parameters.map TypeExpr.description)),
      ("return_type", member.returns.description),
      ("has_this", if member.hasThis then "true" else "false")]

def Operand.description : Operand → String
  | none => "None"
  | int32 value => "Int32(" ++ toString value.toInt ++ ")"
  | string value => "String(" ++ Text.quoted value ++ ")"
  | argument index => "Argument(" ++ toString index ++ ")"
  | slot index => "Local(" ++ toString index ++ ")"
  | target id => "Target(InstructionId(" ++ toString id.index ++ "))"
  | member callee => "Method(" ++ callee.description ++ ")"
  | type expr => "Type(" ++ expr.description ++ ")"

end Splice
