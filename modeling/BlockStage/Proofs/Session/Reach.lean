import BlockStage.Proofs.Run.Keeping
import BlockStage.Proofs.Session.Opening

/-! What can happen to a session, and what holds of it at any time: a snapshot is kept exactly
while a run lasts, and the work of a run leaves it alone. -/

namespace BlockStage.Session

/-- Everything that the program around a session can do to it. -/
inductive Action
  | load (text : String)
  | setScripts (id : ObjectId) (canvas : List Stack)
  | edit (change : Scene → Scene)
  | start (settings : Settings)
  | stop
  | receive (event : InputEvent)
  | tick (dt : Float32)
  | dispatch (event : Event) (target : Option ObjectId)
  | removeObject (id : ObjectId)
  | drainNotices
  | resize (width height : Float32)

/-- What fails leaves the session as it is. -/
def act (s : Session) : Action → Session
  | .load text => (s.load text).toOption.getD s
  | .setScripts id canvas => (s.setScripts id canvas).toOption.getD s
  | .edit change => { s with world := { s.world with scene := change s.world.scene } }
  | .start settings => s.start settings
  | .stop => s.stop
  | .receive event => s.receive event
  | .tick dt => s.tick dt
  | .dispatch event target => (s.dispatch event target).2
  | .removeObject id => s.removeObject id
  | .drainNotices => s.drainNotices.2
  | .resize width height => { s with camera := s.camera.resize width height }

def actAll (s : Session) (actions : List Action) : Session := actions.foldl act s

/-- A snapshot is kept exactly while a run lasts. -/
structure Settled (s : Session) : Prop where
  running : s.world.running = s.snapshot.isSome
  state : s.dispatcher.state = .running ↔ s.snapshot.isSome = true

/-- Some of the work of a run: it leaves the snapshot alone, and the run and its program go on,
under the same constants. -/
structure Continues (s s' : Session) : Prop where
  snapshot : s'.snapshot = s.snapshot
  running : s'.world.running = s.world.running
  state : s'.dispatcher.state = s.dispatcher.state
  program : s'.dispatcher.program = s.dispatcher.program
  config : s'.world.config = s.world.config
  step : s'.clock.step = s.clock.step

namespace Continues

variable {s s' s'' : Session}

protected theorem refl (s : Session) : Continues s s := ⟨rfl, rfl, rfl, rfl, rfl, rfl⟩

protected theorem trans (first : Continues s s') (second : Continues s' s'') :
    Continues s s'' where
  snapshot := second.snapshot.trans first.snapshot
  running := second.running.trans first.running
  state := second.state.trans first.state
  program := second.program.trans first.program
  config := second.config.trans first.config
  step := second.step.trans first.step

theorem settled (h : Continues s s') (hs : Settled s) : Settled s' where
  running := by rw [h.running, h.snapshot, hs.running]
  state := by rw [h.state, h.snapshot, hs.state]

theorem savedScene (h : Continues s s') {scene : Scene} (hs : s.snapshot = some scene) :
    s'.savedScene = s.savedScene := by
  simp only [Session.savedScene, h.snapshot, hs, Option.getD_some]

end Continues

variable (s : Session)

theorem settled_stop : Settled s.stop := ⟨rfl, by simp [stop, Dispatcher.stopped]⟩

@[simp] theorem isRunning_stop : s.stop.isRunning = false := by
  simp [isRunning, stop, World.clearPending]

/-! ### The work of a run -/

theorem continues_dispatch (event : Event) (target : Option ObjectId) :
    Continues s (s.dispatch event target).2 where
  snapshot := rfl
  running := (kept_evolves.dispatch s.dispatcher event target s.scheduler s.world).running
  state := rfl
  program := rfl
  config := (kept_evolves.dispatch s.dispatcher event target s.scheduler s.world).config
  step := rfl

theorem continues_flushUpTo (budget : Nat) : Continues s (s.flushUpTo budget) := by
  induction budget generalizing s with
  | zero => exact .refl s
  | succ budget ih =>
    rw [flushUpTo]
    split
    · exact .refl s
    · rename_i raised world popped
      have left : Continues s { s with world } := by
        obtain ⟨p, -, h⟩ := Option.map_eq_some_iff.1 popped
        obtain ⟨-, rfl⟩ := Prod.mk.inj h
        exact ⟨rfl, rfl, rfl, rfl, rfl, rfl⟩
      exact (left.trans (continues_dispatch _ _ _)).trans (ih _)

theorem continues_fireTimers : Continues s s.fireTimers := by
  have fired := kept_evolves.fireTimers s.dispatcher s.scheduler s.world
  refine ⟨rfl, fired.running, ?_, ?_, fired.config, rfl⟩
  all_goals
    simp only [fireTimers, Dispatcher.fireTimers]
    split <;> rfl

theorem continues_movePlayer (steps : Nat) : Continues s (s.movePlayer steps) :=
  ⟨rfl, rfl, rfl, rfl, rfl, rfl⟩

theorem continues_touchNearby : Continues s s.touchNearby := by
  have touched (ids : List ObjectId) (s : Session) :
      Continues s (ids.foldl (fun s id => (s.dispatch (.collide "player") (some id)).2) s) := by
    induction ids generalizing s with
    | nil => exact .refl s
    | cons id ids ih => exact (s.continues_dispatch _ _).trans (ih _)
  exact touched _ s

theorem continues_stepEffects (steps : Nat) : Continues s (s.stepEffects steps) := by
  have stepped (steps : Nat) (dt : Float32) (w : World) :
      (Nat.repeat (·.stepEffects dt) steps w).running = w.running ∧
        (Nat.repeat (·.stepEffects dt) steps w).config = w.config := by
    induction steps with
    | zero => exact ⟨rfl, rfl⟩
    | succ steps ih => exact ih
  obtain ⟨running, config⟩ := stepped steps s.clock.step s.world
  exact ⟨rfl, running, rfl, rfl, config, rfl⟩

theorem constants_advanceCountdown (w : World) (dt : Float) :
    (w.advanceCountdown dt).running = w.running ∧ (w.advanceCountdown dt).config = w.config := by
  unfold World.advanceCountdown
  split
  · exact ⟨rfl, rfl⟩
  · dsimp only
    split <;> split <;> exact ⟨rfl, rfl⟩

theorem continues_tickTasks : Continues s s.tickTasks := by
  have ticked := kept_evolves.tick s.dispatcher.program s.scheduler s.world
  exact ⟨rfl, ticked.running, rfl, rfl, ticked.config, rfl⟩

theorem continues_advance (dt : Float) : Continues s (s.advance dt) := by
  unfold advance
  have moved (s : Session) (steps : Nat) :
      Continues s ((s.movePlayer steps).touchNearby.stepEffects steps) :=
    ((s.continues_movePlayer steps).trans (continues_touchNearby _)).trans
      (continues_stepEffects _ steps)
  have clocked (s : Session) (dt : Float32) :
      Continues s { s with clock := (s.clock.accumulate dt).2 } :=
    ⟨rfl, rfl, rfl, rfl, rfl, rfl⟩
  have counted (s : Session) (camera : Camera) :
      Continues s { s with camera, world := s.world.advanceCountdown dt } := by
    obtain ⟨running, config⟩ := constants_advanceCountdown s.world dt
    exact ⟨rfl, running, rfl, rfl, config, rfl⟩
  exact ((((s.continues_fireTimers.trans (clocked _ _)).trans (moved _ _)).trans
    (counted _ _)).trans (continues_tickTasks _)).trans (continues_flushUpTo _ _)

theorem continues_start (settings : Settings) : Continues (s.opened settings) (s.start settings) :=
  ((continues_dispatch _ _ _).trans (continues_dispatch _ _ _)).trans (continues_flushUpTo _ _)

/-! ### Input and frames -/

/-- What becomes of a run in a frame: it goes on, or it is stopped after some more work. -/
def Proceeds (s r : Session) : Prop := Continues s r ∨ ∃ s', Continues s s' ∧ r = s'.stop

theorem Proceeds.prepend {s s' r : Session} (rest : Proceeds s' r) (first : Continues s s') :
    Proceeds s r := by
  rcases rest with goesOn | ⟨last, worked, rfl⟩
  · exact .inl (first.trans goesOn)
  · exact .inr ⟨last, first.trans worked, rfl⟩

theorem continues_modifyInput (f : InputState → InputState) : Continues s (s.modifyInput f) :=
  ⟨rfl, rfl, rfl, rfl, rfl, rfl⟩

theorem proceeds_handle (event : InputEvent) : Proceeds s (s.handle event) := by
  cases event with
  | keyDown key =>
    simp only [handle, press]
    split
    · exact .inr ⟨s, .refl s, rfl⟩
    · exact .inl ((s.continues_modifyInput _).trans (continues_dispatch _ _ _))
  | keyUp key => exact .inl (s.continues_modifyInput (·.release (keyLabel key)))
  | click object => exact .inl (s.continues_dispatch _ _)
  | pointer delta => exact .inl (s.continues_modifyInput (·.turn delta))
  | target point => exact .inl ⟨rfl, rfl, rfl, rfl, rfl, rfl⟩

theorem proceeds_handleAll (events : List InputEvent) : Proceeds s (handleAll events s) := by
  induction events generalizing s with
  | nil => exact .inl (.refl s)
  | cons event rest ih =>
    simp only [handleAll]
    have handled := s.proceeds_handle event
    split
    · rename_i running
      -- After a stop the rest of the input is not looked at.
      rcases handled with goesOn | ⟨last, worked, stopped⟩
      · exact (ih _).prepend goesOn
      · rw [stopped] at running
        contradiction
    · exact handled

theorem proceeds_tick (dt : Float32) (running : s.isRunning = true) : Proceeds s (s.tick dt) := by
  simp only [tick, running, if_true]
  have later : Continues s { s with world := { s.world with now := s.world.now + frameTime dt } } :=
    ⟨rfl, rfl, rfl, rfl, rfl, rfl⟩
  generalize { s with world := { s.world with now := s.world.now + frameTime dt } } = s₁ at later
  have emptied : Continues s₁ { s₁ with inbox := {} } := ⟨rfl, rfl, rfl, rfl, rfl, rfl⟩
  have handled : Proceeds s₁ s₁.processInput :=
    (proceeds_handleAll _ s₁.inbox.toList).prepend emptied
  split
  · rename_i still
    rcases handled with goesOn | ⟨last, worked, stopped⟩
    · exact .inl ((later.trans goesOn).trans (continues_advance _ _))
    · rw [stopped] at still
      contradiction
  · exact handled.prepend later

/-! ### All that can happen -/

namespace Settled

variable {s : Session}

theorem isRunning (h : Settled s) : s.isRunning = s.snapshot.isSome := by
  cases hs : s.snapshot.isSome with
  | true => simp [Session.isRunning, h.running, h.state.2 hs, hs]
  | false => simp [Session.isRunning, h.running, hs]

theorem savedScene_of_idle (h : Settled s) (idle : s.isRunning = false) :
    s.savedScene = s.world.scene := by
  rw [h.isRunning, Option.isSome_eq_false_iff, Option.isNone_iff_eq_none] at idle
  rw [savedScene, idle, Option.getD_none]

theorem scene_ready (h : Settled s) : s.ready.world.scene = s.savedScene := by
  unfold ready
  split
  · rfl
  · rename_i idle
    exact (h.savedScene_of_idle (Bool.eq_false_iff.2 idle)).symm

theorem start (h : Settled s) (settings : Settings) :
    Settled (s.start settings) ∧ (s.start settings).snapshot = some s.savedScene ∧
      (s.start settings).dispatcher.program = .ofScene .standard s.savedScene := by
  have base := h.scene_ready
  have worked := s.continues_start settings
  -- The snapshot is taken before any script runs.
  have opened : Settled (s.opened settings) :=
    ⟨congrArg World.running (World.showAllVars_eq _), iff_of_true rfl rfl⟩
  refine ⟨worked.settled opened, worked.snapshot.trans (congrArg some base),
    worked.program.trans (congrArg (Program.ofScene .standard) base)⟩

theorem tick (h : Settled s) (dt : Float32) :
    Settled (s.tick dt) ∧ (s.tick dt).savedScene = s.savedScene := by
  by_cases running : s.isRunning = true
  · obtain ⟨scene, kept⟩ := Option.isSome_iff_exists.1 (h.isRunning ▸ running)
    rcases s.proceeds_tick dt running with goesOn | ⟨last, worked, stopped⟩
    · exact ⟨goesOn.settled h, goesOn.savedScene kept⟩
    · rw [stopped]
      exact ⟨last.settled_stop, worked.savedScene kept⟩
  · rw [Session.tick, if_neg running]
    exact ⟨⟨h.running, h.state⟩, rfl⟩

theorem dispatch (h : Settled s) (event : Event) (target : Option ObjectId) :
    Settled (s.dispatch event target).2 ∧
      (s.dispatch event target).2.savedScene = s.savedScene := by
  have worked := s.continues_dispatch event target
  refine ⟨worked.settled h, ?_⟩
  cases kept : s.snapshot with
  | some scene => exact worked.savedScene kept
  | none =>
    have idle : ¬ s.dispatcher.state = .running := by simp [h.state, kept]
    simp only [Session.dispatch, Dispatcher.dispatch, if_neg idle]

end Settled

theorem settled_ofConfig (config : Config) : Settled (.ofConfig config) :=
  ⟨rfl, by simp [ofConfig]⟩

theorem Settled.withScene {s : Session} (h : Settled s) (world : World)
    (running : world.running = s.world.running) : Settled { s with world } :=
  ⟨running.trans h.running, h.state⟩

theorem settled_act {s : Session} (h : Settled s) (a : Action) : Settled (s.act a) := by
  cases a with
  | load text =>
    simp only [act, load]
    cases Project.parse text with
    | error e => exact h
    | ok project => exact s.settled_stop.withScene _ rfl
  | setScripts id canvas =>
    simp only [act, setScripts]
    cases s.world.scene.setScripts id canvas with
    | error e => exact h
    | ok scene => exact h.withScene _ rfl
  | edit change => exact h.withScene _ rfl
  | start settings => exact (h.start settings).1
  | stop => exact s.settled_stop
  | receive event => exact ⟨h.running, h.state⟩
  | tick dt => exact (h.tick dt).1
  | dispatch event target => exact (h.dispatch event target).1
  | removeObject id =>
    have removed := (s.world.evolves_removeObject id).running
    exact ⟨removed.trans h.running, h.state⟩
  | drainNotices => exact h.withScene _ rfl
  | resize width height => exact ⟨h.running, h.state⟩

theorem settled_actAll {s : Session} (h : Settled s) (actions : List Action) :
    Settled (s.actAll actions) := by
  induction actions generalizing s with
  | nil => exact h
  | cons a rest ih => exact ih (settled_act h a)

end BlockStage.Session
