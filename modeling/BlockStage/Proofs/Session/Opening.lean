import BlockStage.Proofs.Run.Drive
import BlockStage.Session

/-! How a run opens: before any script is launched, all that the past has left is put aside. -/

namespace BlockStage

namespace World

def shownVars (w : World) : List Notice := w.vars.values.map fun p => .variableShown p.1 p.2

theorem showAllVars_eq (w : World) :
    w.showAllVars = { w with notices := w.notices.pushAll w.shownVars } := by
  have shown (values : List (String × Float)) (w : World) :
      values.foldl (fun w p => w.tell (.variableShown p.1 p.2)) w =
        { w with notices := w.notices.pushAll (values.map fun p => .variableShown p.1 p.2) } := by
    induction values generalizing w with
    | nil => rfl
    | cons p rest ih => exact ih _
  exact shown _ w

end World

namespace Session

def ready (s : Session) : Session := if s.isRunning then s.stop else s

/-- The start of a run up to its first event. -/
def opened (s : Session) (settings : Settings) : Session :=
  let s := s.ready
  let settings := { settings with keys := settings.keys.map keyLabel }
  let player := Player.atSpawn s.world.scene.spawnPoint settings s.world.config.gravity
  let world := { s.world.resetForRun player with running := true }
  { s with
    world := world.showAllVars
    dispatcher := Dispatcher.start (.ofScene .standard world.scene) world.now
    inbox := {}
    clock := s.clock.reset
    camera := s.camera.snap player
    settings
    snapshot := some s.world.scene }

variable (s : Session) (settings : Settings)

theorem start_eq : s.start settings =
    (((s.opened settings).dispatch .start none).2.dispatch .levelStart none).2.flush := rfl

theorem raised_opened : (s.opened settings).world.raised = {} := by
  simp only [opened, World.showAllVars_eq]
  rfl

end Session
end BlockStage
