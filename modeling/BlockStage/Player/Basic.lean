import BlockStage.Geometry.Box
import BlockStage.Scalar.Order
import BlockStage.Settings

/-!
The player: a box that walks, jumps and looks around.
-/

namespace BlockStage

structure Player where
  /-- The centre of the player's box. -/
  position : Vec3
  velocity : Vec3 := .zero
  /-- Heading in radians; zero looks along the negative z-axis. -/
  yaw : Float32 := 0
  /-- Elevation of the look in radians, upwards positive. -/
  pitch : Float32 := 0
  speed : Float32
  jumpForce : Float32
  gravity : Float32
  sensitivity : Float32
  grounded : Bool := false
  scheme : ControlScheme
  /-- Where the player starts over. -/
  spawnPoint : Vec3
  /-- Where the player walks to on its own. -/
  moveTarget : Option Vec3 := none

namespace Player

def halfExtents : Vec3 := ⟨0.4, 0.9, 0.4⟩

/-- The steepest look, short of straight up. -/
def steepestPitch : Float32 := 1.55

def atSpawn (spawnPoint : Vec3) (settings : Settings) (gravity : Float32) : Player where
  position := spawnPoint
  speed := settings.speed
  jumpForce := settings.jumpForce
  gravity := gravity
  sensitivity := settings.sensitivity
  scheme := settings.scheme
  spawnPoint := spawnPoint

def standard : Player := atSpawn .zero {} ({} : Config).gravity

def box (p : Player) : Box := .around p.position halfExtents

/-- Back to the start, at rest. -/
def respawn (p : Player) : Player :=
  { p with
    position := p.spawnPoint
    velocity := .zero
    grounded := false
    moveTarget := none }

/-- The direction of the look, of length one. -/
def lookDirection (p : Player) : Vec3 :=
  ⟨-p.yaw.sin * p.pitch.cos, p.pitch.sin, -p.yaw.cos * p.pitch.cos⟩

/-- Turns by a movement of the pointer in pixels. -/
def turn (p : Player) (delta : Vec2) : Player :=
  if delta.x == 0 && delta.y == 0 then p
  else
    { p with
      yaw := p.yaw - delta.x * p.sensitivity
      pitch := Scalar.clamp (p.pitch - delta.y * p.sensitivity) (-steepestPitch) steepestPitch }

end Player
end BlockStage
