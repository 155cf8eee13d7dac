import BlockStage.Palette.Parameter
import BlockStage.Script.Opcode

/-!
A palette of block definitions, looked up by block name.
-/

namespace BlockStage

/-- The part a block plays in a script. -/
inductive BlockKind
  /-- Starts a script and stands only at its head. -/
  | hat
  | command
  /-- Yields a value and does nothing as a statement. -/
  | reporter
  /-- Holds blocks of its own. -/
  | container
deriving DecidableEq

def BlockKind.name : BlockKind → String
  | hat => "hat"
  | command => "command"
  | reporter => "reporter"
  | container => "containerCommand"

/-- The shelves of the palette. -/
inductive Category
  | events
  | motion
  | looks
  | effects
  | control
  | vars
  | sound
  | ui
  | objects
  | game
  | custom
deriving DecidableEq

namespace Category

/-- The heading of the shelf. -/
def name : Category → String
  | events => "Events"
  | motion => "Motion"
  | looks => "Looks"
  | effects => "Effects"
  | control => "Control"
  | vars => "Variables"
  | sound => "Sound"
  | ui => "Ui"
  | objects => "Objects"
  | game => "Game"
  | custom => "Custom"

def all : List Category :=
  [events, motion, looks, effects, control, vars, sound, ui, objects, game, custom]

end Category

namespace Palette

structure Entry where
  id : String
  category : Category
  kind : BlockKind
  parameters : List Parameter
  opcode : Opcode

end Palette

/-- Definitions in their order. Of two with one name the later counts. -/
structure Palette where
  entries : List Palette.Entry

namespace Palette

def find? (p : Palette) (id : String) : Option Entry := p.entries.reverse.find? (·.id = id)

def inCategory (p : Palette) (category : Category) : List Entry :=
  p.entries.filter (·.category = category)

def size (p : Palette) : Nat := p.entries.length

end Palette
end BlockStage
