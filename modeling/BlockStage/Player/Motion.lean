import BlockStage.Input
import BlockStage.Player.Basic
import BlockStage.Scene.Basic

/-!
One fixed step of the player: walk, jump and fall; get out of the boxes in the way; stay above the
ground; start over far below it.
-/

namespace BlockStage.Player

/-- How far below a top face the feet may be and still land on it. -/
def landingBand : Float32 := 0.5

/-- How near a point to walk to has to be to count as reached. -/
def arrivalRadius : Float32 := 0.3

/-- The wanted movement on the ground in one step, and the player with a reached target cleared. -/
def walk (p : Player) (intent : MoveIntent) (dt : Float32) : Vec3 × Player :=
  let stride := p.speed * dt
  match p.scheme with
  | .firstPerson | .thirdPerson =>
    let s := p.yaw.sin
    let c := p.yaw.cos
    let forward : Vec3 := ⟨-s, 0, -c⟩
    let right : Vec3 := ⟨c, 0, -s⟩
    ((forward * intent.forward + right * intent.right).direction * stride, p)
  | .topDown =>
    let forward : Vec3 := ⟨0, 0, -1⟩
    let right : Vec3 := ⟨1, 0, 0⟩
    ((forward * intent.forward + right * intent.right).direction * stride, p)
  | .pointClick =>
    match p.moveTarget with
    | none => (.zero, p)
    | some target =>
      let way : Vec3 := { (target - p.position) with y := 0 }
      let distance := way.length
      if distance < arrivalRadius then (.zero, { p with moveTarget := none })
      else (way / distance * Scalar.smaller stride distance, p)

/-- Out of a box sideways, along the axis with the smaller overlap. -/
def pushOut (p : Player) (body bounds : Box) : Player :=
  let toPositiveX := bounds.max.x - body.min.x
  let toNegativeX := body.max.x - bounds.min.x
  let toPositiveZ := bounds.max.z - body.min.z
  let toNegativeZ := body.max.z - bounds.min.z
  if Scalar.smaller toPositiveX toNegativeX ≤ Scalar.smaller toPositiveZ toNegativeZ then
    if toNegativeX < toPositiveX then
      { p with position := { p.position with x := p.position.x - toNegativeX } }
    else { p with position := { p.position with x := p.position.x + toPositiveX } }
  else if toNegativeZ < toPositiveZ then
    { p with position := { p.position with z := p.position.z - toNegativeZ } }
  else { p with position := { p.position with z := p.position.z + toPositiveZ } }

/-- Meets one box. A falling player with its feet just under the top face lands on it, a rising one
with its head just past the bottom face stops, and any other overlap pushes it out sideways. -/
def meet (p : Player) (bounds : Box) : Player :=
  let body := p.box
  let feet := body.min.y
  let head := body.max.y
  if !body.overlapsGround bounds then p
  else if p.velocity.y ≤ 0 && feet ≤ bounds.max.y && bounds.max.y - landingBand ≤ feet then
    { p with
      position := { p.position with y := bounds.max.y + halfExtents.y }
      velocity := { p.velocity with y := 0 }
      grounded := true }
  else if 0 < p.velocity.y && bounds.min.y ≤ head && head ≤ bounds.min.y + landingBand then
    { p with
      position := { p.position with y := bounds.min.y - halfExtents.y }
      velocity := { p.velocity with y := 0 } }
  else if feet < bounds.max.y && bounds.min.y < head then p.pushOut body bounds
  else p

/-- The boxes that stand in the player's way. -/
def obstacles (scene : Scene) : List Box :=
  (scene.objects.filter fun o => o.collidable && o.visible).map SceneObject.box

/-- Meets every box in the way, in the order of the scene. -/
def resolve (p : Player) (scene : Scene) : Player :=
  (obstacles scene).foldl meet { p with grounded := false }

/-- Leaves the ground if a jump is wanted and possible. -/
def jump (p : Player) (intent : MoveIntent) : Player :=
  if intent.jump && p.grounded then
    { p with velocity := { p.velocity with y := p.jumpForce }, grounded := false }
  else p

/-- Gravity, and the movement of one step. -/
def advance (p : Player) (way : Vec3) (dt : Float32) : Player :=
  let fall := p.velocity.y - p.gravity * dt
  let velocity : Vec3 :=
    if 0 < dt then ⟨way.x / dt, fall, way.z / dt⟩ else { p.velocity with y := fall }
  { p with
    velocity := velocity
    position := ⟨p.position.x + way.x, p.position.y + fall * dt, p.position.z + way.z⟩ }

/-- Stands on the ground plane if it would be below it. -/
def stayAboveGround (p : Player) (config : Config) : Player :=
  if config.groundPlane && p.position.y < halfExtents.y then
    { p with
      position := { p.position with y := halfExtents.y }
      velocity := { p.velocity with y := Scalar.larger p.velocity.y 0 }
      grounded := true }
  else p

/-- Starts over if it fell too deep. -/
def startOver (p : Player) (config : Config) : Player :=
  if p.position.y < config.deathHeight then p.respawn else p

def step (p : Player) (intent : MoveIntent) (scene : Scene) (config : Config) (dt : Float32) :
    Player :=
  let (way, p) := p.walk intent dt
  ((((p.jump intent).advance way dt).resolve scene).stayAboveGround config).startOver config

/-- The visible objects with their centres at most `radius` away. -/
def nearby (p : Player) (scene : Scene) (radius : Float32) : List ObjectId :=
  (scene.objects.filter fun o => o.visible && o.position.distance p.position ≤ radius).map (·.id)

end BlockStage.Player
