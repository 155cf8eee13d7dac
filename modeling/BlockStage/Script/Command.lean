import BlockStage.Script.Condition
import BlockStage.Script.Opcode

/-!
The commands that scripts are made of, read from an operation and its arguments. Commands that hold
other commands do so in the instruction around them.
-/

namespace BlockStage

/-- A change of the owner that looks at nothing else. Angles are in radians. -/
inductive Edit
  | move (offset : Vec3)
  | setPosition (position : Vec3)
  | rotate (offset : Vec3)
  | setRotation (rotation : Vec3)
  | setColor (rgb : Vec3)
  | setOpacity (opacity : Float32)
  | setVisible (visible : Bool)
  | setScale (scale : Vec3)
  | changeScale (factor : Float32)

/-- An effect to be started on the owner. -/
inductive EffectPlan
  | spin (axis : Axis) (speed : Float32)
  | bounce (height speed : Float32)
  | patrol (axis : Axis) (distance speed : Float32)
  | followPlayer (speed : Float32)
  | colorShift (speed : Float32)
  | orbit (radius speed : Float32)
  | scalePulse (min max speed : Float32)
  | trail (rgb : Vec3)

inductive Command
  | edit (change : Edit)
  | lookAtPlayer
  /-- `relative` targets count from where the owner is. -/
  | glide (target : Vec3) (seconds : Float) (relative : Bool)
  | teleportPlayer (position : Vec3)
  | setSpawnPoint
  | launchPlayer (force : Float32)
  | setPlayerSpeed (speed : Float32)
  | setJumpForce (force : Float32)
  | say (text : String) (seconds : Float32)
  | startEffect (plan : EffectPlan)
  | gravity
  | particles (rgb : Vec3) (count : Nat)
  | stopParticles
  | stopEffects
  | wait (seconds : Float)
  | waitUntil (condition : Condition)
  | repeatTimes (count : Nat)
  | forever
  | ifThen (condition : Condition)
  | ifElse (condition : Condition)
  | whileHolds (condition : Condition)
  /-- All whole numbers from `first` to `last`, downwards if `last` is smaller. -/
  | forEach (counter : String) (first last : Int64)
  | stop
  | call (name : String)
  | setVar (name : String) (value : Float)
  | changeVar (name : String) (amount : Float)
  | resetVar (name : String)
  | showVar (name : String)
  | playSound (name : String)
  | playTone (frequency seconds : Float32)
  | broadcast (text : String)
  | showMessage (text : String) (seconds : Float32)
  | spawnObject (shape : String) (position : Vec3)
  | duplicate
  | destroy
  | damage (amount : Float)
  | heal (amount : Float)
  | addScore (amount : Float)
  | collectItem
  | defeatEnemy
  | loseLife
  | startTimer (seconds : Float)

namespace Command

def mostRepeats : Nat := 100000

def mostParticles : Nat := 500

/-- Degrees to radians. -/
def radians (degrees : Vec3) : Vec3 := degrees * (3.1415927 / 180 : Float32)

/-- A number rounded to a count of at most `most`. -/
def count (x : Float) (most : Nat) : Nat :=
  (Scalar.clamp (Scalar.round x) 0 (Float.ofNat most)).toUInt32.toNat

def atLeastZero (x : Float32) : Float32 := Scalar.larger x 0

/-- The command of an operation with the given arguments; hats and reporters have none. -/
def ofOpcode? (op : Opcode) (r : ArgumentReader) : Option Command :=
  match op with
  | .move => some (edit (.move r.point))
  | .setPosition => some (edit (.setPosition r.point))
  | .rotate => some (edit (.rotate (radians r.point)))
  | .setRotation => some (edit (.setRotation (radians r.point)))
  | .glide => some (glide r.point (r.number "seconds") false)
  | .smoothMove => some (glide r.point (r.number "seconds") true)
  | .lookAtPlayer => some lookAtPlayer
  | .teleportPlayer => some (teleportPlayer r.point)
  | .setSpawnPoint => some setSpawnPoint
  | .launchPlayer => some (launchPlayer (r.single "force"))
  | .setColor => some (edit (.setColor (r.color "color")))
  | .setOpacity => some (edit (.setOpacity (Scalar.clamp (r.single "value") 0 1)))
  | .appear => some (edit (.setVisible true))
  | .vanish => some (edit (.setVisible false))
  | .setScale => some (edit (.setScale r.point))
  | .changeScale => some (edit (.changeScale (r.single "factor")))
  | .say => some (say (r.text "text") (atLeastZero (r.single "seconds")))
  | .spin => some (startEffect (.spin (.ofName (r.text "axis")) (r.single "speed")))
  | .bounce => some (startEffect (.bounce (r.single "height") (r.single "speed")))
  | .patrol =>
    some (startEffect (.patrol (.ofName (r.text "axis")) (r.single "distance") (r.single "speed")))
  | .followPlayer => some (startEffect (.followPlayer (r.single "speed")))
  | .colorShift => some (startEffect (.colorShift (r.single "speed")))
  | .gravity => some gravity
  | .orbit => some (startEffect (.orbit (r.single "radius") (r.single "speed")))
  | .scalePulse =>
    some (startEffect (.scalePulse (r.single "min") (r.single "max") (r.single "speed")))
  | .particles => some (particles (r.color "color") (count (r.number "count") mostParticles))
  | .trail => some (startEffect (.trail (r.color "color")))
  | .stopParticles => some stopParticles
  | .stopEffects => some stopEffects
  | .wait => some (wait (Scalar.larger (r.number "seconds") 0))
  | .waitUntil => some (waitUntil (.ofArguments r))
  | .repeatTimes => some (repeatTimes (count (r.number "times") mostRepeats))
  | .forever => some forever
  | .ifThen => some (ifThen (.ofArguments r))
  | .ifElse => some (ifElse (.ofArguments r))
  | .whileHolds => some (whileHolds (.ofArguments r))
  | .forEach =>
    some (forEach (r.text "var") (Scalar.toWord (Scalar.round (r.number "start")))
      (Scalar.toWord (Scalar.round (r.number "end"))))
  | .stop => some stop
  | .callBlock => some (call (r.text "name"))
  | .setVar => some (setVar (r.text "var") (r.number "value"))
  | .changeVar => some (changeVar (r.text "var") (r.number "amount"))
  | .resetVar => some (resetVar (r.text "var"))
  | .showVar => some (showVar (r.text "var"))
  | .playSound => some (playSound (r.text "sound"))
  | .playTone => some (playTone (r.single "frequency") (atLeastZero (r.single "seconds")))
  | .broadcast => some (broadcast (r.text "msg"))
  | .showMessage => some (showMessage (r.text "text") (atLeastZero (r.single "seconds")))
  | .spawnObject => some (spawnObject (r.text "shape") r.point)
  | .duplicate => some duplicate
  | .destroy => some destroy
  | .damage => some (damage (r.number "amount"))
  | .heal => some (heal (r.number "amount"))
  | .addScore => some (addScore (r.number "amount"))
  | .collectItem => some collectItem
  | .defeatEnemy => some defeatEnemy
  | .loseLife => some loseLife
  | .startTimer => some (startTimer (Scalar.larger (r.number "seconds") 0))
  | .setPlayerSpeed => some (setPlayerSpeed (atLeastZero (r.single "speed")))
  | .setJumpForce => some (setJumpForce (atLeastZero (r.single "force")))
  | .onStart | .onClick | .onKey | .onCollide | .onTimer | .onMessage | .onHealthZero
  | .onEnemyDefeated | .onItemCollected | .onLevelStart | .onTimerDone | .onLivesZero
  | .defineBlock | .varValue | .randomNumber => none

end Command
end BlockStage
