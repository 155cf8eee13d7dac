import BlockStage.Scene.Object
import BlockStage.Settings
import BlockStage.Text.KeyLabel

/-!
What the user does between two frames, and what a run remembers of it: the keys that are held and
the pointer's movement since it was last looked at.
-/

namespace BlockStage

inductive InputEvent
  | keyDown (key : String)
  | keyUp (key : String)
  | click (object : ObjectId)
  /-- Movement of the pointer in pixels. -/
  | pointer (delta : Vec2)
  /-- A point on the ground to walk to. -/
  | target (point : Vec3)

namespace InputEvent

def ofKeyDown (raw : String) : InputEvent := keyDown (keyLabel raw)

def ofKeyUp (raw : String) : InputEvent := keyUp (keyLabel raw)

end InputEvent

structure InputState where
  held : List String := []
  look : Vec2 := .zero

namespace InputState

def isHeld (s : InputState) (key : String) : Bool := s.held.contains key

def anyHeld (s : InputState) : Bool := !s.held.isEmpty

def press (s : InputState) (key : String) : InputState :=
  if s.isHeld key then s else { s with held := key :: s.held }

def release (s : InputState) (key : String) : InputState := { s with held := s.held.erase key }

/-- Adds to the movement of the pointer. -/
def turn (s : InputState) (delta : Vec2) : InputState := { s with look := s.look + delta }

/-- The movement of the pointer, which is forgotten. -/
def takeLook (s : InputState) : Vec2 × InputState := (s.look, { s with look := .zero })

end InputState

/-- What the player wants to do in one step. -/
structure MoveIntent where
  /-- Forward is positive. -/
  forward : Float32 := 0
  /-- Right is positive. -/
  right : Float32 := 0
  jump : Bool := false

namespace MoveIntent

/-- One for the first key alone, minus one for the second alone, zero otherwise. -/
def axis (s : InputState) (positive negative : String) : Float32 :=
  match s.isHeld positive, s.isHeld negative with
  | true, false => 1
  | false, true => -1
  | _, _ => 0

def ofKeys (s : InputState) (keys : KeyBindings) : MoveIntent where
  forward := axis s keys.forward keys.backward
  right := axis s keys.right keys.left
  jump := s.isHeld keys.jump

end MoveIntent
end BlockStage
