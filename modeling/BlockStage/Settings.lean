import BlockStage.Json.Record

/-!
The constants of the engine, and the settings a user chooses for one run.
-/

namespace BlockStage

open Json (Document)
open Json.Document

/-- Constants of the engine. Times are in seconds. -/
structure Config where
  /-- The length of one step of physics and effects. -/
  fixedStep : Float32 := 1 / 60
  /-- Downward acceleration. -/
  gravity : Float32 := 30
  /-- How near an object's centre has to be to touch the player. -/
  interactionRadius : Float32 := 1.5
  /-- Whether there is solid ground at height zero. -/
  groundPlane : Bool := true
  /-- A player below this height starts over. -/
  deathHeight : Float32 := -30
  /-- The time between two looks at a condition that a script waits for. -/
  pollInterval : Float := 0.05
  /-- The rest between two passes of a loop without a count. -/
  loopRest : Float := 1 / 60
  /-- How many raised events are dispatched in one frame. -/
  eventsPerFrame : Nat := 256
  /-- How many tasks may be live at once. -/
  mostTasks : Nat := 4096
  seed : UInt64 := 42

/-- How the player moves and where the camera stands. -/
inductive ControlScheme
  | firstPerson
  | thirdPerson
  | topDown
  | pointClick
deriving DecidableEq

namespace ControlScheme

def name : ControlScheme → String
  | firstPerson => "firstPerson"
  | thirdPerson => "thirdPerson"
  | topDown => "topDown"
  | pointClick => "pointClick"

def all : List ControlScheme := [firstPerson, thirdPerson, topDown, pointClick]

def ofName? (s : String) : Option ControlScheme := all.find? (·.name = s)

/-- A name, alone or as the only member of an object. -/
def ofDocument? : Nat → Document → Option ControlScheme
  | _, .text value => value.bind ofName?
  | _ + 1, object [(some name, null)] => ofName? name
  | _, _ => none

end ControlScheme

/-- The keys of the player's actions. -/
structure KeyBindings where
  forward : String := "w"
  backward : String := "s"
  left : String := "a"
  right : String := "d"
  jump : String := "space"

namespace KeyBindings

def toList (k : KeyBindings) : List String := [k.forward, k.backward, k.left, k.right, k.jump]

def map (f : String → String) (k : KeyBindings) : KeyBindings :=
  ⟨f k.forward, f k.backward, f k.left, f k.right, f k.jump⟩

def ofDocument? : Nat → Document → Option KeyBindings
  | 0, _ => none
  | _ + 1, d => do
    let standard : KeyBindings := {}
    match ← d.fields? ["forward", "backward", "left", "right", "jump"] with
    | [forward, backward, left, right, jump] =>
      return {
        forward := ← orElse standard.forward text? forward
        backward := ← orElse standard.backward text? backward
        left := ← orElse standard.left text? left
        right := ← orElse standard.right text? right
        jump := ← orElse standard.jump text? jump }
    | _ => none

end KeyBindings

/-- The settings of one run: speeds in units per second, the turn in radians per pixel. -/
structure Settings where
  scheme : ControlScheme := .firstPerson
  speed : Float32 := 8
  jumpForce : Float32 := 12
  sensitivity : Float32 := 0.002
  keys : KeyBindings := {}

namespace Settings

def ofDocument? : Nat → Document → Option Settings
  | 0, _ => none
  | depth + 1, d => do
    let standard : Settings := {}
    match ← d.fields? ["controlScheme", "speed", "jumpForce", "sensitivity", "keyBindings"] with
    | [scheme, speed, jumpForce, sensitivity, keys] =>
      return {
        scheme := ← orElse standard.scheme (ControlScheme.ofDocument? depth) scheme
        speed := ← orElse standard.speed single? speed
        jumpForce := ← orElse standard.jumpForce single? jumpForce
        sensitivity := ← orElse standard.sensitivity single? sensitivity
        keys := ← orElse standard.keys (KeyBindings.ofDocument? depth) keys }
    | _ => none

def parse? (text : String) : Option Settings :=
  (Document.parse? text).bind (ofDocument? Json.maxDepth)

end Settings
end BlockStage
