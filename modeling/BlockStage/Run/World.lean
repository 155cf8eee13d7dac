import BlockStage.Effect.Registry
import BlockStage.Input
import BlockStage.Player.Basic
import BlockStage.Queue
import BlockStage.Run.Notice
import BlockStage.Run.Variables
import BlockStage.Script.Condition
import BlockStage.Script.Event

/-!
The world of a run: the scene with everything that scripts can read and change. Every write to a
variable is shown.
-/

namespace BlockStage

/-- An event that a script raised, perhaps for a single object. -/
structure RaisedEvent where
  event : Event
  target : Option ObjectId

structure World where
  config : Config
  scene : Scene := {}
  vars : Variables := .initial
  player : Player := .standard
  effects : Registry := {}
  input : InputState := {}
  dice : Dice
  /-- Seconds since the start of the run. -/
  now : Float := 0
  running : Bool := false
  /-- What nobody was told yet. -/
  notices : Queue Notice := {}
  /-- What was raised and not dispatched yet. -/
  raised : Queue RaisedEvent := {}
  /-- Seconds left of the countdown. -/
  countdown : Option Float := none

namespace World

def ofConfig (config : Config) : World := { config, dice := .ofSeed config.seed }

/-- The world in which a new run starts. Only the scene and the constants stay. -/
def resetForRun (w : World) (player : Player) : World :=
  { ofConfig w.config with scene := w.scene, player, running := w.running,
                           effects := w.effects.clear }

/-- Drops what waits for a frame that will not come. -/
def clearPending (w : World) : World :=
  { w with
    effects := w.effects.clear
    input := {}
    notices := {}
    raised := {}
    countdown := none }

/-! ### Notices and events -/

def tell (w : World) (notice : Notice) : World := { w with notices := w.notices.push notice }

def drainNotices (w : World) : List Notice × World :=
  (w.notices.toList, { w with notices := {} })

/-- Raises an event, perhaps for a single object. -/
def raiseFor (w : World) (event : Event) (target : Option ObjectId) : World :=
  { w with raised := w.raised.push ⟨event, target⟩ }

/-- Raises an event for every object. -/
def raise (w : World) (event : Event) : World := w.raiseFor event none

def popRaised? (w : World) : Option (RaisedEvent × World) :=
  w.raised.pop?.map fun (event, raised) => (event, { w with raised })

/-! ### Variables -/

def showVar (w : World) (name : String) : World :=
  w.tell (.variableShown name (w.vars.get name))

def setVar (w : World) (name : String) (value : Float) : World :=
  { w with vars := w.vars.set name value }.showVar name

def changeVar (w : World) (name : String) (amount : Float) : World :=
  { w with vars := w.vars.change name amount }.showVar name

def resetVar (w : World) (name : String) : World :=
  { w with vars := w.vars.reset name }.showVar name

/-- Shows every variable, in the order of their names. -/
def showAllVars (w : World) : World :=
  w.vars.values.foldl (fun w (name, value) => w.tell (.variableShown name value)) w

/-- Takes from a variable, and raises an event if that brings it from above zero to zero or
below. -/
def drain (w : World) (name : String) (amount : Float) (event : Event) : World :=
  let before := w.vars.get name
  let w := w.changeVar name (-amount)
  if 0 < before && w.vars.get name ≤ 0 then w.raise event else w

/-! ### The countdown -/

/-- Starts a countdown in place of a running one. The variable shows whole seconds. -/
def startCountdown (w : World) (seconds : Float) : World :=
  { w with countdown := some seconds }.setVar "timer" (Scalar.ceil seconds)

/-- Lets the countdown run for `dt` seconds. Its end is an event. -/
def advanceCountdown (w : World) (dt : Float) : World :=
  match w.countdown with
  | none => w
  | some left =>
    let left := left - dt
    let w := { w with countdown := some left }
    let shown := Scalar.ceil (Scalar.larger left 0)
    let w := if shown == w.vars.get "timer" then w else w.setVar "timer" shown
    if left ≤ 0 then { w with countdown := none }.raise .timerDone else w

/-! ### Objects -/

def modifyObject (w : World) (id : ObjectId) (f : SceneObject → SceneObject) : World :=
  { w with scene := w.scene.modify id f }

/-- Adds an object that was not there when the run started. -/
def spawnObject (w : World) (make : ObjectId → SceneObject) : World :=
  let (id, scene) := w.scene.allocate
  { w with scene := scene.spawn (make id) }.tell (.spawned id)

/-- Removes an object with its effects, if it is there. -/
def removeObject (w : World) (id : ObjectId) : World :=
  if w.scene.contains id then
    { w with scene := w.scene.despawn id, effects := w.effects.removeObject id }.tell (.removed id)
  else w

def addEffect (w : World) (id : ObjectId) (effect : Effect) : RecordId × World :=
  let (record, effects) := w.effects.add id effect
  (record, { w with effects })

def stepEffects (w : World) (dt : Float32) : World :=
  let (scene, effects) := w.effects.step ⟨dt, w.player.position, w.config.gravity⟩ w.scene
  { w with scene, effects }

def distanceToPlayer? (w : World) (id : ObjectId) : Option Float32 :=
  (w.scene.find? id).map (·.position.distance w.player.position)

end World

namespace Condition

/-- Whether a condition holds for an owner. A missing owner is neither near nor far. -/
def holds (condition : Condition) (owner : ObjectId) (w : World) : Bool × World :=
  match condition with
  | nearPlayer distance => ((w.distanceToPlayer? owner).any (· ≤ distance), w)
  | farFromPlayer distance => ((w.distanceToPlayer? owner).any (distance < ·), w)
  | keyPressed label => (w.input.isHeld label, w)
  | anyKey => (w.input.anyHeld, w)
  | variableIs name comparison value => (comparison.holds (w.vars.get name) value, w)
  | chance percent =>
    let (hit, dice) := w.dice.chance percent
    (hit, { w with dice })

end Condition
end BlockStage
