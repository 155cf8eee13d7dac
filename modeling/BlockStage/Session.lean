import BlockStage.Camera
import BlockStage.Clock
import BlockStage.Palette.Standard
import BlockStage.Player.Motion
import BlockStage.Run.Dispatcher

/-!
A session: a scene that is edited and, now and then, run. A run works on the live scene; when it
stops, the scene is put back as it was before.
-/

namespace BlockStage

structure Session where
  world : World
  dispatcher : Dispatcher := {}
  scheduler : Scheduler := {}
  /-- What the user did since the last frame. -/
  inbox : Queue InputEvent := {}
  clock : FixedClock
  camera : Camera := {}
  settings : Settings := {}
  /-- The scene before the run, while it lasts. -/
  snapshot : Option Scene := none

namespace Session

/-- Longer frames count as this long. -/
def mostFrameTime : Float := 0.25

/-- The key that stops a run. -/
def stopKey : String := "escape"

def ofConfig (config : Config) : Session where
  world := .ofConfig config
  clock := { step := config.fixedStep }

def isRunning (s : Session) : Bool := s.world.running && decide (s.dispatcher.state = .running)

/-- Ends the run, if there is one, and puts the scene back. -/
def stop (s : Session) : Session :=
  let world := { s.world with running := false }.clearPending
  { s with
    world := { world with scene := s.snapshot.getD world.scene }
    dispatcher := .stopped
    scheduler := s.scheduler.clear
    inbox := {}
    snapshot := none }

/-! ### Editing -/

/-- Puts a saved scene in place of the scene. A run ends first. -/
def load (s : Session) (text : String) : Except Failure Session := do
  let project ← Project.parse text
  let s := s.stop
  return { s with world := { s.world with scene := project.toScene } }

/-- The scene to be saved: during a run, the one before it. -/
def savedScene (s : Session) : Scene := s.snapshot.getD s.world.scene

def save (s : Session) : String := (Project.ofScene s.savedScene).render

/-- Changes the scripts of an object of the live scene, for the next compilation. -/
def setScripts (s : Session) (id : ObjectId) (scripts : List Stack) : Except Failure Session := do
  let scene ← s.world.scene.setScripts id scripts
  return { s with world := { s.world with scene } }

/-- Adds an object to the live scene. -/
def spawn (s : Session) (o : SceneObject) : Session :=
  { s with world := { s.world with scene := s.world.scene.spawn o } }

/-! ### Running -/

/-- Launches every script that an event starts, and counts them. -/
def dispatch (s : Session) (event : Event) (target : Option ObjectId) : Nat × Session :=
  let (count, scheduler, world) := s.dispatcher.dispatch event target s.scheduler s.world
  (count, { s with scheduler, world })

/-- Dispatches at most `budget` of the raised events; the others wait for the next frame. -/
def flushUpTo : (budget : Nat) → Session → Session
  | 0, s => s
  | budget + 1, s =>
    match s.world.popRaised? with
    | none => s
    | some (raised, world) =>
      flushUpTo budget ({ s with world }.dispatch raised.event raised.target).2

def flush (s : Session) : Session := s.flushUpTo s.world.config.eventsPerFrame

/-- Starts a run: keeps the scene for later, compiles all scripts, and launches those that wait for
the start. A run that is going on ends first. -/
def start (s : Session) (settings : Settings) : Session :=
  let s := if s.isRunning then s.stop else s
  let settings := { settings with keys := settings.keys.map keyLabel }
  let player := Player.atSpawn s.world.scene.spawnPoint settings s.world.config.gravity
  let world := { s.world.resetForRun player with running := true }
  let dispatcher := Dispatcher.start (.ofScene .standard world.scene) world.now
  let s := { s with
    world := world.showAllVars
    dispatcher
    inbox := {}
    clock := s.clock.reset
    camera := s.camera.snap player
    settings
    snapshot := some s.world.scene }
  let (_, s) := s.dispatch .start none
  let (_, s) := s.dispatch .levelStart none
  s.flush

/-- Takes note of something the user did, for the next frame. -/
def receive (s : Session) (event : InputEvent) : Session := { s with inbox := s.inbox.push event }

def modifyInput (s : Session) (f : InputState → InputState) : Session :=
  { s with world := { s.world with input := f s.world.input } }

def press (s : Session) (key : String) : Session :=
  if key = stopKey then s.stop
  else ((s.modifyInput (·.press key)).dispatch (.key key) none).2

def handle (s : Session) : InputEvent → Session
  | .keyDown key => s.press (keyLabel key)
  | .keyUp key => s.modifyInput (·.release (keyLabel key))
  | .click object => (s.dispatch .click (some object)).2
  | .pointer delta => s.modifyInput (·.turn delta)
  | .target point =>
    { s with world := { s.world with
      player := { s.world.player with moveTarget := some point } } }

/-- Handles what the user did, in order, as long as the run lasts. -/
def handleAll : List InputEvent → Session → Session
  | [], s => s
  | event :: rest, s =>
    let s := s.handle event
    if s.isRunning then handleAll rest s else s

def processInput (s : Session) : Session := handleAll s.inbox.toList { s with inbox := {} }

def fireTimers (s : Session) : Session :=
  let (dispatcher, scheduler, world) := s.dispatcher.fireTimers s.scheduler s.world
  { s with dispatcher, scheduler, world }

/-- Turns the player, and lets it walk for a number of fixed steps. -/
def movePlayer (s : Session) (steps : Nat) : Session :=
  let w := s.world
  let (look, input) := w.input.takeLook
  let intent := MoveIntent.ofKeys input s.settings.keys
  let walk := fun (p : Player) => p.step intent w.scene w.config s.clock.step
  { s with world := { w with input, player := Nat.repeat walk steps (w.player.turn look) } }

/-- Tells every object near the player that it is touched. -/
def touchNearby (s : Session) : Session :=
  let w := s.world
  (w.player.nearby w.scene w.config.interactionRadius).foldl
    (fun s id => (s.dispatch (.collide "player") (some id)).2) s

def stepEffects (s : Session) (steps : Nat) : Session :=
  { s with world := Nat.repeat (·.stepEffects s.clock.step) steps s.world }

def tickTasks (s : Session) : Session :=
  let (scheduler, world) := s.scheduler.tick s.dispatcher.program s.world
  { s with scheduler, world }

/-- The part of a frame that follows the user's input. -/
def advance (s : Session) (dt : Float) : Session :=
  let s := s.fireTimers
  let (steps, clock) := s.clock.accumulate (Scalar.narrow dt)
  let s := ({ s with clock }.movePlayer steps).touchNearby.stepEffects steps
  let s := { s with
    camera := s.camera.follow s.world.player (Scalar.narrow dt)
    world := s.world.advanceCountdown dt }
  s.tickTasks.flush

/-- The time that a frame counts for. -/
def frameTime (dt : Float32) : Float := Scalar.clamp (Scalar.widen dt) 0 mostFrameTime

/-- One frame of a run; outside a run, what the user did is forgotten. -/
def tick (s : Session) (dt : Float32) : Session :=
  if s.isRunning then
    let dt := frameTime dt
    let s := { s with world := { s.world with now := s.world.now + dt } }.processInput
    if s.isRunning then s.advance dt else s
  else { s with inbox := {} }

/-- Removes an object with its tasks and effects. -/
def removeObject (s : Session) (id : ObjectId) : Session :=
  { s with scheduler := s.scheduler.cancelOwner id, world := s.world.removeObject id }

def drainNotices (s : Session) : List Notice × Session :=
  let (notices, world) := s.world.drainNotices
  (notices, { s with world })

end Session
end BlockStage
