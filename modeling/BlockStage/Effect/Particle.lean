import BlockStage.Dice
import BlockStage.Scalar.Order

/-!
Particles: points that fly, fall a little, fade and go out.
-/

namespace BlockStage

structure Particle where
  position : Vec3
  velocity : Vec3
  color : Vec3
  size : Float32
  /-- Seconds so far. -/
  age : Float32 := 0
  /-- Seconds in all. -/
  life : Float32
  opacity : Float32 := 1

namespace Particle

/-- The share of gravity that pulls at a particle. -/
def gravityShare : Float32 := 0.3

def shortestLife : Float32 := 1.1920929e-7

def ofLife (position velocity color : Vec3) (size life : Float32) : Particle :=
  { position, velocity, color, size, life := Scalar.larger life shortestLife }

/-- One step, and whether the particle is still alive. -/
def advance (p : Particle) (dt gravity : Float32) : Bool × Particle :=
  let age := p.age + dt
  if p.life ≤ age then (false, { p with age := age, opacity := 0 })
  else
    let velocity := { p.velocity with y := p.velocity.y - gravity * gravityShare * dt }
    (true, { p with
      age := age
      velocity := velocity
      position := p.position + velocity * dt
      opacity := 1 - age / p.life })

/-- One step of all particles; those that go out are gone. -/
def advanceAll (particles : List Particle) (dt gravity : Float32) : List Particle :=
  particles.filterMap fun p =>
    match p.advance dt gravity with
    | (true, p) => some p
    | (false, _) => none

/-- A spray of `count` particles from one point. -/
def burst (origin color : Vec3) : (count : Nat) → Dice → List Particle × Dice
  | 0, dice => ([], dice)
  | count + 1, dice =>
    let (direction, dice) := dice.spread 0.5
    let (life, dice) := dice.between 0.6 1.2
    let (rest, dice) := burst origin color count dice
    (ofLife origin (direction * (4 : Float32)) color 0.15 life :: rest, dice)

/-- A particle of a trail, at rest. -/
def ofTrail (position color : Vec3) : Particle := ofLife position .zero color 0.1 0.5

end Particle
end BlockStage
