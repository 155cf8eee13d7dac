import BlockStage.Run.Frame
import BlockStage.Run.Program

/-!
What a single instruction does to the world, and what it asks of the task that runs it. An
instruction of an owner that is gone leaves the scene as it is.
-/

namespace BlockStage

/-- What an instruction asks of its task. -/
inductive Flow
  | next
  | suspend (wake : Wake)
  /-- To run a frame to its end first. -/
  | enter (frame : Frame)
  /-- To start a task of its own for a frame. -/
  | spawn (frame : Frame)
  | stop

/-- Health is not healed past this. -/
def mostHealth : Float := 100

/-- Speech floats this far above an object's top. -/
def speechOffset : Float32 := 0.5

namespace World

/-- Turns an object's face to the player. -/
def faceTo (player : Vec3) (o : SceneObject) : SceneObject :=
  let way := player - o.position
  { o with rotation := { o.rotation with y := way.x.atan2 way.z } }

/-- The player will start over on top of the object. -/
def spawnAbove (w : World) (owner : ObjectId) : World :=
  match w.scene.find? owner with
  | none => w
  | some o =>
    let height := o.box.max.y + Player.halfExtents.y
    { w with player := { w.player with spawnPoint := ⟨o.position.x, height, o.position.z⟩ } }

def speak (w : World) (owner : ObjectId) (text : String) (seconds : Float32) : World :=
  match w.scene.find? owner with
  | none => w
  | some o =>
    let point := o.position + Vec3.up * (o.worldHalfExtents.y + speechOffset)
    w.tell (.speech owner text point seconds)

def startEffect (w : World) (owner : ObjectId) (plan : EffectPlan) : World :=
  match w.scene.find? owner with
  | none => w
  | some o => (w.addEffect owner (plan.start o)).2

/-- Lets go of an object that is not anchored. -/
def startGravity (w : World) (owner : ObjectId) : World :=
  match w.scene.find? owner with
  | none => w
  | some o => if o.anchored then w else (w.addEffect owner (.gravity 0)).2

def startBurst (w : World) (owner : ObjectId) (rgb : Vec3) (count : Nat) : World :=
  match w.scene.find? owner with
  | none => w
  | some o =>
    let (particles, dice) := Particle.burst o.position rgb count w.dice
    ({ w with dice }.addEffect owner (.burst particles)).2

/-- Starts an eased move and waits for its end. A move that takes no time is done at once. -/
def glide (w : World) (owner : ObjectId) (target : Vec3) (seconds : Float) (relative : Bool) :
    Flow × World :=
  match w.scene.find? owner with
  | none => (.next, w)
  | some o =>
    let finish := if relative then o.position + target else target
    if seconds ≤ 0 then (.next, w.modifyObject owner fun o => { o with position := finish })
    else
      let (record, w) := w.addEffect owner (.glide o.position finish (Scalar.narrow seconds))
      (.suspend (.effect record), w)

def duplicate (w : World) (owner : ObjectId) : World :=
  match w.scene.duplicate? owner with
  | none => w
  | some (copy, scene) => { w with scene }.tell (.spawned copy)

def hide (w : World) (owner : ObjectId) : World :=
  w.modifyObject owner (Edit.setVisible false).apply

end World

namespace Instruction

/-- A frame for a body, unless the body is empty. -/
def enterBody (body : List Instruction) : Flow :=
  if body.isEmpty then .next else .enter (.sequence body)

/-- Runs one instruction for a task of `owner`. -/
def execute (i : Instruction) (owner : ObjectId) (program : Program) (w : World) : Flow × World :=
  match i.command with
  | .edit change => (.next, w.modifyObject owner change.apply)
  | .lookAtPlayer => (.next, w.modifyObject owner (World.faceTo w.player.position))
  | .glide target seconds relative => w.glide owner target seconds relative
  | .teleportPlayer position =>
    (.next, { w with player :=
      { w.player with position := position, velocity := .zero, moveTarget := none } })
  | .setSpawnPoint => (.next, w.spawnAbove owner)
  | .launchPlayer force =>
    (.next, { w with player :=
      { w.player with velocity := { w.player.velocity with y := force }, grounded := false } })
  | .setPlayerSpeed speed => (.next, { w with player := { w.player with speed := speed } })
  | .setJumpForce force => (.next, { w with player := { w.player with jumpForce := force } })
  | .say text seconds => (.next, w.speak owner text seconds)
  | .startEffect plan => (.next, w.startEffect owner plan)
  | .gravity => (.next, w.startGravity owner)
  | .particles rgb count => (.next, w.startBurst owner rgb count)
  | .stopParticles => (.next, { w with effects := w.effects.stopParticles owner })
  | .stopEffects => (.next, { w with effects := w.effects.removeObject owner })
  | .wait seconds => (.suspend (.time (w.now + seconds)), w)
  | .waitUntil condition =>
    match condition.holds owner w with
    | (true, w) => (.next, w)
    | (false, w) => (.suspend (.poll condition (w.now + w.config.pollInterval)), w)
  | .repeatTimes count =>
    if count = 0 ∨ i.children.isEmpty then (.next, w)
    else (.enter (.repeatTimes i.children count), w)
  | .forever => (if i.children.isEmpty then .next else .spawn (.forever i.children false), w)
  | .ifThen condition =>
    match condition.holds owner w with
    | (true, w) => (enterBody i.children, w)
    | (false, w) => (.next, w)
  | .ifElse condition =>
    match condition.holds owner w with
    | (true, w) => (enterBody i.children, w)
    | (false, w) => (enterBody i.elseChildren, w)
  | .whileHolds condition => (.enter (.whileHolds condition i.children false), w)
  | .forEach counter first last => (.enter (.forEach counter (some first) last i.children), w)
  | .stop => (.stop, w)
  | .call name =>
    match program.definition? owner name with
    | some definition => (.enter (.sequence definition.body), w)
    | none => (.next, w)
  | .setVar name value => (.next, w.setVar name value)
  | .changeVar name amount => (.next, w.changeVar name amount)
  | .resetVar name => (.next, w.resetVar name)
  | .showVar name => (.next, w.showVar name)
  | .playSound name => (.next, w.tell (.sound name))
  | .playTone frequency seconds => (.next, w.tell (.tone frequency seconds))
  | .broadcast text => (.next, w.raise (.message text))
  | .showMessage text seconds => (.next, w.tell (.message text seconds))
  | .spawnObject shape position =>
    (.next, w.spawnObject fun id =>
      { ({ id : SceneObject }.withShape shape) with position := position })
  | .duplicate => (.next, w.duplicate owner)
  | .destroy => (.stop, w.removeObject owner)
  | .damage amount => (.next, w.drain "health" amount .healthZero)
  | .heal amount =>
    (.next, w.setVar "health" (Scalar.smaller (w.vars.get "health" + amount) mostHealth))
  | .addScore amount => (.next, w.changeVar "score" amount)
  | .collectItem => (.next, ((w.changeVar "coins" 1).hide owner).raise .itemCollected)
  | .defeatEnemy => (.next, (w.hide owner).raise .enemyDefeated)
  | .loseLife => (.next, w.drain "lives" 1 .livesZero)
  | .startTimer seconds => (.next, w.startCountdown seconds)

end Instruction
end BlockStage
