import BlockStage.Proofs.Session.Reach

/-! A run leaves no trace behind: as long as it lasts the scene to be saved is the one before it,
and however it ends, the scene is that one again. -/

namespace BlockStage.Session

/-- The action plays a run on; it neither starts, stops nor edits anything. -/
def Action.Plays : Action → Prop
  | receive _ | tick _ | dispatch _ _ | removeObject _ | drainNotices | resize _ _ => True
  | load _ | setScripts _ _ | edit _ | start _ | stop => False

/-- All actions play on a run that is not over before any of them. -/
def Lasts : Session → List Action → Prop
  | _, [] => True
  | s, a :: rest => s.isRunning = true ∧ a.Plays ∧ Lasts (s.act a) rest

/-- A key that stops the run waits in the inbox, perhaps behind other input. -/
def StopAwaits (s : Session) : Prop :=
  ∃ key, .keyDown key ∈ s.inbox.toList ∧ keyLabel key = stopKey

variable {s : Session}

theorem start_of_running (running : s.isRunning = true) (settings : Settings) :
    s.start settings = s.stop.start settings := by
  simp only [start, running, isRunning_stop, if_true, Bool.false_eq_true, if_false]

/-! ### While a run lasts -/

/-- No play of a run reaches the scene that will be saved. -/
theorem savedScene_act (h : Settled s) (running : s.isRunning = true) {a : Action}
    (plays : a.Plays) : (s.act a).savedScene = s.savedScene := by
  obtain ⟨scene, kept⟩ := Option.isSome_iff_exists.1 (h.isRunning ▸ running)
  cases a with
  | receive event => rfl
  | tick dt => exact (h.tick dt).2
  | dispatch event target => exact (h.dispatch event target).2
  | removeObject id => simp only [act, removeObject, savedScene, kept, Option.getD_some]
  | drainNotices => rfl
  | resize width height => rfl
  | load text => exact plays.elim
  | setScripts id canvas => exact plays.elim
  | edit change => exact plays.elim
  | start settings => exact plays.elim
  | stop => exact plays.elim

theorem savedScene_actAll (h : Settled s) {actions : List Action} (lasts : s.Lasts actions) :
    (s.actAll actions).savedScene = s.savedScene := by
  induction actions generalizing s with
  | nil => rfl
  | cons a rest ih =>
    obtain ⟨running, plays, later⟩ := lasts
    exact (ih (settled_act h a) later).trans (savedScene_act h running plays)

/-! ### The stop key -/

theorem isRunning_handleAll {events : List InputEvent} {key : String}
    (pressed : .keyDown key ∈ events) (stops : keyLabel key = stopKey) (s : Session) :
    (handleAll events s).isRunning = false := by
  induction events generalizing s with
  | nil => contradiction
  | cons event rest ih =>
    rw [handleAll]
    split
    · rename_i running
      rcases List.mem_cons.1 pressed with rfl | later
      · simp [handle, press, stops] at running
      · exact ih later _
    · rename_i ended
      exact Bool.eq_false_iff.2 ended

theorem isRunning_tick_of_stopAwaits (running : s.isRunning = true) (awaits : s.StopAwaits)
    (dt : Float32) : (s.tick dt).isRunning = false := by
  obtain ⟨key, pressed, stops⟩ := awaits
  simp only [tick, running, if_true]
  have ended (world : World) : { s with world }.processInput.isRunning = false :=
    isRunning_handleAll pressed stops _
  rw [ended, if_neg Bool.false_ne_true]
  exact ended _

/-! ### Whole runs -/

/-- In a run the saved text stays what it was before the start. Once the run is over, by a stop, by
the stop key or by a new start, the scene is the one before it; the new run begins from it. -/
theorem run_restores_scene (config : Config) (history : List Action) (settings : Settings)
    (actions : List Action)
    (lasts : (((ofConfig config).actAll history).start settings).Lasts actions) :
    let s := (ofConfig config).actAll history
    let t := (s.start settings).actAll actions
    t.save = s.save ∧
    (s.isRunning = false → s.savedScene = s.world.scene) ∧
    (t.isRunning = false → t.world.scene = s.savedScene) ∧
    (t.stop.isRunning = false ∧ t.stop.world.scene = s.savedScene) ∧
    (t.isRunning = true →
      (∀ dt, t.StopAwaits →
        (t.tick dt).isRunning = false ∧ (t.tick dt).world.scene = s.savedScene) ∧
      ∀ again, t.start again = t.stop.start again ∧
        (t.start again).snapshot = some s.savedScene ∧
        (t.start again).dispatcher.program = .ofScene .standard s.savedScene) := by
  intro s t
  have settled : Settled s := settled_actAll (settled_ofConfig config) history
  obtain ⟨started, snapshot, -⟩ := settled.start settings
  have settled_t : Settled t := settled_actAll started actions
  have kept : t.savedScene = s.savedScene := by
    rw [savedScene_actAll started lasts, savedScene, snapshot, Option.getD_some]
  refine ⟨?_, settled.savedScene_of_idle, fun ended => ?_, ⟨t.isRunning_stop, kept⟩,
    fun running => ⟨fun dt awaits => ?_, fun again => ?_⟩⟩
  · rw [save, kept, save]
  · rw [← settled_t.savedScene_of_idle ended, kept]
  · have ended := isRunning_tick_of_stopAwaits running awaits dt
    obtain ⟨settled', saved⟩ := settled_t.tick dt
    exact ⟨ended, by rw [← settled'.savedScene_of_idle ended, saved, kept]⟩
  · obtain ⟨-, snapshot', program⟩ := settled_t.start again
    rw [kept] at snapshot' program
    exact ⟨start_of_running running again, snapshot', program⟩

section Example

def removing : List Action :=
  [.removeObject ⟨1⟩, .receive (.click ⟨1⟩), .receive (.keyDown "Escape"), .tick 0]

def lone : List Action := [.edit (·.spawn { id := ⟨1⟩ })]

theorem run_restores_removed :
    let s := (ofConfig {}).actAll lone
    (s.start {}).Lasts removing ∧
    ((s.start {}).actAll [.removeObject ⟨1⟩]).world.scene.ids = [] ∧
    ((s.start {}).actAll removing).save = s.save ∧
    ((s.start {}).actAll removing).world.scene = s.savedScene := by
  have lasts : (((ofConfig {}).actAll lone).start {}).Lasts removing :=
    ⟨rfl, trivial, rfl, trivial, rfl, trivial, rfl, trivial, trivial⟩
  have run := run_restores_scene {} lone {} removing lasts
  exact ⟨lasts, rfl, run.1, run.2.2.1 rfl⟩

end Example

end BlockStage.Session
