import BlockStage.Json.Document
import BlockStage.Script.Compiled

/-!
Compiled scripts in documents: names and arguments alone, for display in the editor.
-/

namespace BlockStage

open Json (Document)

def Argument.toDocument : Argument → Document
  | .number x => .double x
  | .text s => .string s
  | .color rgb => .string (Color.toHex rgb)

def Arguments.toDocument (arguments : Arguments) : Document :=
  .record (arguments.map fun (name, value) => (name, value.toDocument))

namespace Instruction

mutual

def toDocument : Instruction → Document
  | ⟨opcode, arguments, kind, _, children, elseChildren⟩ =>
    .record (
      [("code", .string opcode.name), ("values", arguments.toDocument),
        ("type", .string kind.name)]
      ++ (if children.isEmpty then [] else [("children", .array (listToDocuments children))])
      ++ (if elseChildren.isEmpty then []
        else [("elseChildren", .array (listToDocuments elseChildren))]))

def listToDocuments : List Instruction → List Document
  | [] => []
  | i :: rest => toDocument i :: listToDocuments rest

end

end Instruction

def Script.toDocument (s : Script) : Document :=
  .record [("trigger", .string s.trigger.opcode.name),
    ("triggerValues", s.arguments.toDocument),
    ("commands", .array (Instruction.listToDocuments s.body))]

end BlockStage
