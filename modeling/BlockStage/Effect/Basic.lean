import BlockStage.Color
import BlockStage.Easing
import BlockStage.Effect.Particle
import BlockStage.Scene.Object

/-!
Effects on objects. An effect is started on an object, remembers what it needs of it, and writes
its result into the object at every step.
-/

namespace BlockStage

inductive Effect
  /-- Turns about one axis, in radians per second. -/
  | spin (axis : Axis) (speed : Float32)
  | bounce (base height speed : Float32)
  /-- An eased move that ends on arrival. -/
  | glide (start finish : Vec3) (duration : Float32)
  /-- To and fro along one axis. -/
  | patrol (axis : Axis) (origin distance speed : Float32)
  | followPlayer (speed : Float32)
  /-- Goes around the hues from a base hue, saturation and lightness. -/
  | colorShift (base : Vec3) (speed : Float32)
  | gravity (velocity : Float32)
  | orbit (center : Vec3) (radius speed : Float32)
  | scalePulse (base : Vec3) (min max speed : Float32)
  /-- One spray, which ends with its last particle. -/
  | burst (particles : List Particle)
  | trail (color : Vec3) (particles : List Particle) (cooldown : Float32)

/-- What every effect sees of the world in one step. -/
structure StepView where
  dt : Float32
  player : Vec3
  gravity : Float32

namespace EffectPlan

/-- The effect, started on an object. -/
def start : EffectPlan → SceneObject → Effect
  | spin axis speed, _ => .spin axis speed
  | bounce height speed, o => .bounce o.position.y height speed
  | patrol axis distance speed, o => .patrol axis (axis.get o.position) distance speed
  | followPlayer speed, _ => .followPlayer speed
  | colorShift speed, o => .colorShift (Color.toHsl o.color) speed
  | orbit radius speed, o => .orbit o.position radius speed
  | scalePulse min max speed, o => .scalePulse o.scale min max speed
  | trail color, _ => .trail color [] 0

end EffectPlan

namespace Effect

/-- Followers stop this far from the player. -/
def followDistance : Float32 := 1.5

/-- The time between two particles of a trail. -/
def trailInterval : Float32 := 0.05

def particles : Effect → List Particle
  | burst particles => particles
  | trail _ particles _ => particles
  | _ => []

def hasParticles : Effect → Bool
  | burst _ => true
  | trail .. => true
  | _ => false

/-- The share of its time that a glide has used up. -/
def glideShare (elapsed duration : Float32) : Float32 :=
  if 0 < duration then elapsed / duration else 1

def followed (o : SceneObject) (speed : Float32) (view : StepView) : SceneObject :=
  let way : Vec3 := { (view.player - o.position) with y := 0 }
  let distance := way.length
  if followDistance < distance then
    let stride := Scalar.smaller (speed * view.dt) (distance - followDistance)
    { o with position := o.position + way / distance * stride }
  else o

/-- An object after a fall of one step, and its velocity. The box comes to rest on the ground. -/
def fallen (o : SceneObject) (velocity : Float32) (view : StepView) : SceneObject × Float32 :=
  let velocity := velocity - view.gravity * view.dt
  let height := o.position.y + velocity * view.dt
  let half := o.worldHalfExtents.y
  if height - half < 0 then ({ o with position := { o.position with y := half } }, 0)
  else ({ o with position := { o.position with y := height } }, velocity)

/-- One step at time `elapsed`: the object, and the effect unless it is over. -/
def step (effect : Effect) (o : SceneObject) (elapsed : Float32) (view : StepView) :
    SceneObject × Option Effect :=
  match effect with
  | spin axis speed =>
    ({ o with rotation := axis.set o.rotation (axis.get o.rotation + speed * view.dt) },
      some effect)
  | bounce base height speed =>
    let y := base + (elapsed * speed).sin.abs * height
    ({ o with position := { o.position with y } }, some effect)
  | glide start finish duration =>
    let share := glideShare elapsed duration
    if 1 ≤ share then ({ o with position := finish }, none)
    else ({ o with position := Easing.slowEnds.between start finish share }, some effect)
  | patrol axis origin distance speed =>
    ({ o with position := axis.set o.position (origin + (elapsed * speed).sin * distance) },
      some effect)
  | followPlayer speed => (followed o speed view, some effect)
  | colorShift base speed =>
    let hue := base.x + elapsed * speed
    let saturation := Scalar.larger base.y 0.5
    let lightness := Scalar.clamp base.z 0.25 0.75
    ({ o with color := Color.ofHsl hue saturation lightness }, some effect)
  | gravity velocity =>
    let (o, velocity) := fallen o velocity view
    (o, some (gravity velocity))
  | orbit center radius speed =>
    let angle := elapsed * speed
    let x := center.x + angle.cos * radius
    let z := center.z + angle.sin * radius
    ({ o with position := { o.position with x, z } }, some effect)
  | scalePulse base min max speed =>
    let t := ((elapsed * speed).sin + 1) * 0.5
    ({ o with scale := base * Easing.mix min max t }, some effect)
  | burst particles =>
    let left := Particle.advanceAll particles view.dt view.gravity
    (o, if left.isEmpty then none else some (burst left))
  | trail color particles cooldown =>
    let left := Particle.advanceAll particles view.dt view.gravity
    let cooldown := cooldown - view.dt
    if cooldown ≤ 0 then
      let fresh := Particle.ofTrail o.position color
      (o, some (trail color (left ++ [fresh]) (cooldown + trailInterval)))
    else (o, some (trail color left cooldown))

theorem step_id (effect : Effect) (o : SceneObject) (elapsed : Float32) (view : StepView) :
    (effect.step o elapsed view).1.id = o.id := by
  cases effect with
  | glide start finish duration => simp only [step]; split <;> rfl
  | trail color particles cooldown => simp only [step]; split <;> rfl
  | followPlayer speed => simp only [step, followed]; split <;> rfl
  | gravity velocity => simp only [step, fallen]; split <;> rfl
  | _ => rfl

end Effect
end BlockStage
