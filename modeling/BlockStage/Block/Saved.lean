import BlockStage.Block.Basic
import BlockStage.Json.Record

/-!
Blocks and stacks in documents.
-/

namespace BlockStage

open Json (Document)
open Json.Document

namespace Block

def fieldNames : List String := ["instanceId", "blockId", "values", "children", "elseChildren"]

/-- The raw values of a block. -/
def values? (depth : Nat) (d : Document) : Option (Named Json.Value) :=
  match d.value? depth with
  | some (.object members) => some members
  | _ => none

/-- A block, given how its lists of children are read. -/
def ofFields? (children? : Document → Option (List Block)) (depth : Nat) (d : Document) :
    Option Block := do
  match ← d.fields? fieldNames with
  | [instanceId, blockId, values, children, elseChildren] =>
    return {
      instanceId := ← orElse 0 word? instanceId
      blockId := ← blockId.bind text?
      values := ← orElse [] (values? depth) values
      children := ← orElse [] children? children
      elseChildren := ← orElse [] children? elseChildren }
  | _ => none

/-- An array of blocks. The array and each of its blocks take one level of depth each. -/
def listOfDocument? : Nat → Document → Option (List Block)
  | 0, _ => none
  | 1, array [] => some []
  | depth + 2, array items => items.mapM (ofFields? (listOfDocument? depth) depth)
  | _, _ => none

mutual

def toDocument : Block → Document
  | ⟨instanceId, blockId, values, children, elseChildren⟩ =>
    .record (
      [("instanceId", .nat instanceId.toNat), ("blockId", .string blockId),
        ("values", .object (Json.Value.membersToDocuments values)),
        ("children", .array (listToDocuments children))]
      ++ (if elseChildren.isEmpty then []
        else [("elseChildren", .array (listToDocuments elseChildren))]))

def listToDocuments : List Block → List Document
  | [] => []
  | b :: rest => toDocument b :: listToDocuments rest

end

end Block

namespace Stack

def ofDocument? : Nat → Document → Option Stack
  | 0, _ => none
  | depth + 1, d => do
    match ← d.fields? ["id", "x", "y", "blocks"] with
    | [id, x, y, blocks] =>
      return {
        id := ← orElse 0 word? id
        x := ← orElse 0 single? x
        y := ← orElse 0 single? y
        blocks := ← orElse [] (Block.listOfDocument? depth) blocks }
    | _ => none

def listOfDocument? : Nat → Document → Option (List Stack) := Document.list? ofDocument?

/-- The stacks a whole text stands for. -/
def parse? (text : String) : Option (List Stack) :=
  (Document.parse? text).bind (listOfDocument? Json.maxDepth)

def toDocument (s : Stack) : Document :=
  .record [("id", .nat s.id.toNat), ("x", .single s.x), ("y", .single s.y),
    ("blocks", .array (Block.listToDocuments s.blocks))]

end Stack
end BlockStage
