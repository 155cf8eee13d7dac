import BlockStage.Block.Basic
import BlockStage.Palette.Entry
import BlockStage.Script.Command
import BlockStage.Script.Event
import BlockStage.Text.KeyLabel

/-!
Scripts: a trigger and a tree of instructions. A stack compiles to a script if a hat is at its
head; a block that is unknown, is no command or stands in the wrong place is left out.
-/

namespace BlockStage

structure Instruction where
  opcode : Opcode
  arguments : Arguments
  kind : BlockKind
  command : Command
  children : List Instruction
  elseChildren : List Instruction

structure Script where
  trigger : Trigger
  arguments : Arguments
  body : List Instruction

namespace Palette.Entry

/-- An argument for every parameter, from raw values. Key names become labels. -/
def check (e : Entry) (raw : Named Json.Value) : Arguments :=
  Named.ofList (e.parameters.map fun p =>
    (p.name, match p.kind.coerce (raw.get? p.name) with
      | .text s => if p.name = "key" then .text (keyLabel s) else .text s
      | other => other))

end Palette.Entry

namespace Block

mutual

def compile? (palette : Palette) : Block → Option Instruction
  | ⟨_, blockId, values, children, elseChildren⟩ => do
    let entry ← palette.find? blockId
    let arguments := entry.check values
    let command ← Command.ofOpcode? entry.opcode ⟨arguments, .standard⟩
    match entry.kind with
    | .hat | .reporter => none
    | .command => return ⟨entry.opcode, arguments, .command, command, [], []⟩
    | .container =>
      return ⟨entry.opcode, arguments, .container, command, compileList palette children,
        compileList palette elseChildren⟩

/-- The instructions of the blocks that have one, in their order. -/
def compileList (palette : Palette) : List Block → List Instruction
  | [] => []
  | b :: rest =>
    match compile? palette b with
    | some instruction => instruction :: compileList palette rest
    | none => compileList palette rest

end

end Block

namespace Stack

def compile? (palette : Palette) (s : Stack) : Option Script :=
  match s.blocks with
  | [] => none
  | head :: body => do
    let entry ← palette.find? head.blockId
    if entry.kind = .hat then
      let arguments := entry.check head.values
      let trigger ← Trigger.ofHat? entry.opcode ⟨arguments, .standard⟩
      return ⟨trigger, arguments, Block.compileList palette body⟩
    else none

/-- The scripts of the stacks that have one, in their order. -/
def compileAll (palette : Palette) (canvas : List Stack) : List Script :=
  canvas.filterMap (compile? palette)

end Stack
end BlockStage
