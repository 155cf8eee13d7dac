import BlockStage.Json.Value

/-!
Blocks as they lie on the editor's canvas, in stacks. Their values are raw: nothing is checked
against what a block expects.
-/

namespace BlockStage

/-- A placed block. The second list of children is the other branch of a choice. -/
structure Block where
  instanceId : UInt64
  blockId : String
  values : Named Json.Value
  children : List Block
  elseChildren : List Block

structure Stack where
  id : UInt64
  x : Float32
  y : Float32
  blocks : List Block

namespace Block

mutual

/-- The greatest instance number in a block and everything inside it. -/
def greatestId : Block → UInt64
  | ⟨instanceId, _, _, children, elseChildren⟩ =>
    max instanceId (max (greatestIdIn children) (greatestIdIn elseChildren))

def greatestIdIn : List Block → UInt64
  | [] => 0
  | b :: rest => max (greatestId b) (greatestIdIn rest)

end

end Block

namespace Stack

/-- One past the greatest instance number in use; one if there is no block. A word of 64 bits holds
it unless the greatest word itself is in use. -/
def nextInstanceId (canvas : List Stack) : Nat :=
  match canvas.flatMap (·.blocks) with
  | [] => 1
  | blocks => (Block.greatestIdIn blocks).toNat + 1

/-- The stacks that hold a block. -/
def pruneEmpty (canvas : List Stack) : List Stack := canvas.filter (!·.blocks.isEmpty)

end Stack
end BlockStage
