import BlockStage.Proofs.Run.Renumbering
import BlockStage.Proofs.Session.Restoring

/-! A run does not depend on what came before it, apart from the saved scene. Whatever the past, a
start gives the session of a first start, with other numbers for its effects and tasks and another
camera; and these make no difference to anything later. -/

namespace BlockStage

namespace World

variable {k : Nat} (w : World)

theorem stepEffects_renumber (dt : Float32) :
    (w.renumber k).stepEffects dt = (w.stepEffects dt).renumber k := by
  have effects : (w.renumber k).effects = w.effects.shift k := rfl
  simp only [stepEffects, effects, Registry.shift_step]
  rfl

theorem advanceCountdown_renumber (dt : Float) :
    (w.renumber k).advanceCountdown dt = (w.advanceCountdown dt).renumber k := by
  have countdown : (w.renumber k).countdown = w.countdown := rfl
  have vars : (w.renumber k).vars = w.vars := rfl
  simp only [advanceCountdown, countdown, vars]
  cases w.countdown with
  | none => rfl
  | some left =>
    by_cases same : (Scalar.ceil (Scalar.larger (left - dt) 0) == w.vars.get "timer") = true <;>
      by_cases ended : left - dt ≤ 0 <;> simp only [same, ended, if_true, if_false] <;> rfl

theorem showAllVars_renumber : (w.renumber k).showAllVars = w.showAllVars.renumber k := by
  rw [showAllVars_eq, showAllVars_eq]
  rfl

/-- Of the past, a new run has no more than the number of the next effect. -/
theorem reset_eq_fresh (player : Player) :
    { w.resetForRun player with running := true } =
      renumber w.effects.nextId
        { ({ ofConfig w.config with scene := w.scene } : World).resetForRun player with
          running := true } := by
  have effects : w.effects.clear = Registry.shift w.effects.nextId {} := by
    simp [Registry.clear, Registry.shift]
  simp only [resetForRun, effects]
  rfl

end World

namespace Session

variable (k m : Nat) (camera : Camera)

/-- The session under another camera, with other numbers for its effects and tasks. -/
def renumber (s : Session) : Session :=
  { s with world := s.world.renumber k, scheduler := s.scheduler.renumber k m, camera }

variable (s : Session)

@[simp] theorem isRunning_renumber : (s.renumber k m camera).isRunning = s.isRunning := rfl

theorem stop_renumber : (s.renumber k m camera).stop = s.stop.renumber k m camera := rfl

theorem dispatch_renumber (event : Event) (target : Option ObjectId) :
    (s.renumber k m camera).dispatch event target =
      ((s.dispatch event target).1, (s.dispatch event target).2.renumber k m camera) := by
  simp only [dispatch, renumber, Dispatcher.dispatch_renumber]

theorem flushUpTo_renumber (budget : Nat) :
    (s.renumber k m camera).flushUpTo budget = (s.flushUpTo budget).renumber k m camera := by
  induction budget generalizing s with
  | zero => rfl
  | succ budget ih =>
    have raised : (s.renumber k m camera).world.popRaised? =
        s.world.popRaised?.map fun (r, world) => (r, world.renumber k) := by
      change (s.world.raised.pop?).map _ = ((s.world.raised.pop?).map _).map _
      rw [Option.map_map]
      rfl
    rw [flushUpTo, flushUpTo, raised]
    cases s.world.popRaised? with
    | none => rfl
    | some popped =>
      obtain ⟨r, world⟩ := popped
      have dispatched := dispatch_renumber k m camera { s with world } r.event r.target
      change (({ s with world }.renumber k m camera).dispatch r.event r.target).2.flushUpTo
        budget = _
      rw [dispatched, ih]

theorem flush_renumber : (s.renumber k m camera).flush = s.flush.renumber k m camera :=
  s.flushUpTo_renumber k m camera _

/-! ### Frames -/

theorem fireTimers_renumber :
    (s.renumber k m camera).fireTimers = s.fireTimers.renumber k m camera := by
  simp only [fireTimers, renumber, Dispatcher.fireTimers_renumber]

theorem touchNearby_renumber :
    (s.renumber k m camera).touchNearby = s.touchNearby.renumber k m camera := by
  have touched (ids : List ObjectId) (s : Session) :
      ids.foldl (fun s id => (s.dispatch (.collide "player") (some id)).2)
          (s.renumber k m camera) =
        (ids.foldl (fun s id => (s.dispatch (.collide "player") (some id)).2) s).renumber
          k m camera := by
    induction ids generalizing s with
    | nil => rfl
    | cons id rest ih => simp only [List.foldl_cons, dispatch_renumber, ih]
  exact touched _ s

theorem stepEffects_renumber (steps : Nat) :
    (s.renumber k m camera).stepEffects steps = (s.stepEffects steps).renumber k m camera := by
  have stepped (dt : Float32) (w : World) :
      Nat.repeat (·.stepEffects dt) steps (w.renumber k) =
        (Nat.repeat (·.stepEffects dt) steps w).renumber k := by
    induction steps with
    | zero => rfl
    | succ steps ih => simp only [Nat.repeat, ih, World.stepEffects_renumber]
  simp only [stepEffects, renumber, stepped]

theorem tickTasks_renumber :
    (s.renumber k m camera).tickTasks = s.tickTasks.renumber k m camera := by
  simp only [tickTasks, renumber, Scheduler.tick_renumber]

theorem advance_renumber (dt : Float) : ∃ camera',
    (s.renumber k m camera).advance dt = (s.advance dt).renumber k m camera' := by
  have moved (s : Session) (clock : FixedClock) (steps : Nat) :
      ({ s.renumber k m camera with clock }.movePlayer steps).touchNearby.stepEffects steps =
        (({ s with clock }.movePlayer steps).touchNearby.stepEffects steps).renumber
          k m camera := by
    rw [← stepEffects_renumber, ← touchNearby_renumber]
    rfl
  have counted (s : Session) (other camera' : Camera) :
      { s.renumber k m camera with
        camera := camera', world := (s.world.renumber k).advanceCountdown dt } =
        { s with camera := other, world := s.world.advanceCountdown dt }.renumber k m camera' := by
    rw [World.advanceCountdown_renumber]
    rfl
  -- The camera follows the player from where it stands, so here the two sessions part.
  obtain ⟨stepped, before, after⟩ : ∃ stepped : Session,
      (s.advance dt = { stepped with
        camera := stepped.camera.follow stepped.world.player (Scalar.narrow dt)
        world := stepped.world.advanceCountdown dt }.tickTasks.flush) ∧
      (s.renumber k m camera).advance dt = { stepped.renumber k m camera with
        camera := camera.follow stepped.world.player (Scalar.narrow dt)
        world := (stepped.world.renumber k).advanceCountdown dt }.tickTasks.flush := by
    rcases hc : s.fireTimers.clock.accumulate (Scalar.narrow dt) with ⟨steps, clock⟩
    have clocks : (s.fireTimers.renumber k m camera).clock = s.fireTimers.clock := rfl
    refine ⟨({ s.fireTimers with clock }.movePlayer steps).touchNearby.stepEffects steps, ?_, ?_⟩
    · simp only [advance, hc]
    · simp only [advance, fireTimers_renumber, clocks, hc, moved]
      rfl
  refine ⟨camera.follow stepped.world.player (Scalar.narrow dt), ?_⟩
  rw [before, after, counted stepped, tickTasks_renumber, flush_renumber]

/-! ### Input -/

theorem handle_renumber (event : InputEvent) :
    (s.renumber k m camera).handle event = (s.handle event).renumber k m camera := by
  cases event with
  | keyDown key =>
    simp only [handle, press]
    split
    · rfl
    · have pressed := dispatch_renumber k m camera (s.modifyInput (·.press (keyLabel key)))
        (.key (keyLabel key)) none
      exact congrArg Prod.snd pressed
  | keyUp key => rfl
  | click object =>
    exact congrArg Prod.snd (s.dispatch_renumber k m camera .click (some object))
  | pointer delta => rfl
  | target point => rfl

theorem handleAll_renumber (events : List InputEvent) :
    handleAll events (s.renumber k m camera) = (handleAll events s).renumber k m camera := by
  induction events generalizing s with
  | nil => rfl
  | cons event rest ih =>
    simp only [handleAll, handle_renumber, isRunning_renumber, ih]
    split <;> rfl

theorem tick_renumber (dt : Float32) : ∃ camera',
    (s.renumber k m camera).tick dt = (s.tick dt).renumber k m camera' := by
  have processed (now : Float) :
      { s.renumber k m camera with
        world := { (s.renumber k m camera).world with now := now } }.processInput =
        { s with world := { s.world with now } }.processInput.renumber k m camera :=
    handleAll_renumber k m camera { s with world := { s.world with now }, inbox := {} }
      s.inbox.toList
  have now : (s.renumber k m camera).world.now = s.world.now := rfl
  simp only [tick, isRunning_renumber, processed, now]
  split
  · split
    · exact advance_renumber k m camera _ _
    · exact ⟨camera, rfl⟩
  · exact ⟨camera, rfl⟩

/-! ### Everything that can happen -/

theorem ready_renumber :
    (s.renumber k m camera).ready = s.ready.renumber k m camera := by
  by_cases running : s.isRunning = true
  · rw [ready, ready, if_pos running, isRunning_renumber, if_pos running, stop_renumber]
  · rw [ready, ready, if_neg running, isRunning_renumber, if_neg running]

theorem opened_renumber (settings : Settings) : ∃ camera',
    (s.renumber k m camera).opened settings = (s.opened settings).renumber k m camera' := by
  refine ⟨((s.renumber k m camera).opened settings).camera, ?_⟩
  simp only [opened, ready_renumber, World.showAllVars_eq]
  rfl

theorem start_renumber (settings : Settings) : ∃ camera',
    (s.renumber k m camera).start settings = (s.start settings).renumber k m camera' := by
  obtain ⟨camera', opened⟩ := s.opened_renumber k m camera settings
  exact ⟨camera', by simp only [start_eq, opened, dispatch_renumber, flush_renumber]⟩

theorem act_renumber (a : Action) : ∃ camera',
    (s.renumber k m camera).act a = (s.act a).renumber k m camera' := by
  cases a with
  | load text =>
    simp only [act, load]
    cases Project.parse text with
    | error e => exact ⟨camera, rfl⟩
    | ok project => exact ⟨camera, rfl⟩
  | setScripts id canvas =>
    have scene : (s.renumber k m camera).world.scene = s.world.scene := rfl
    simp only [act, setScripts, scene]
    cases s.world.scene.setScripts id canvas with
    | error e => exact ⟨camera, rfl⟩
    | ok scene => exact ⟨camera, rfl⟩
  | edit change => exact ⟨camera, rfl⟩
  | start settings => exact s.start_renumber k m camera settings
  | stop => exact ⟨camera, rfl⟩
  | receive event => exact ⟨camera, rfl⟩
  | tick dt => exact s.tick_renumber k m camera dt
  | dispatch event target =>
    exact ⟨camera, congrArg Prod.snd (s.dispatch_renumber k m camera event target)⟩
  | removeObject id =>
    have removed : (s.world.renumber k).removeObject id = (s.world.removeObject id).renumber k :=
      World.recast_removeObject _ id s.world
    have cancelled := Scheduler.cancelOwner_renumber (k := k) (m := m) id s.scheduler
    exact ⟨camera, by simp only [act, removeObject, renumber, removed, cancelled]⟩
  | drainNotices => exact ⟨camera, rfl⟩
  | resize width height => exact ⟨camera.resize width height, rfl⟩

def drains (s : Session) : List Action → List (List Notice)
  | [] => []
  | .drainNotices :: rest => s.drainNotices.1 :: (s.act .drainNotices).drains rest
  | a :: rest => (s.act a).drains rest

theorem actAll_renumber (actions : List Action) : (∃ camera',
    (s.renumber k m camera).actAll actions = (s.actAll actions).renumber k m camera') ∧
    (s.renumber k m camera).drains actions = s.drains actions := by
  induction actions generalizing s camera with
  | nil => exact ⟨⟨camera, rfl⟩, rfl⟩
  | cons a rest ih =>
    obtain ⟨camera', acted⟩ := s.act_renumber k m camera a
    obtain ⟨later, drained⟩ := ih camera' (s.act a)
    refine ⟨?_, ?_⟩
    · simpa only [actAll, List.foldl_cons, acted] using later
    · cases a with
      | drainNotices =>
        simp only [drains, acted, drained]
        rfl
      | _ => simp only [drains, acted, drained]

/-! ### What a past can leave behind -/

/-- The constants are those of the configuration, and tasks live no longer than a run. -/
structure Rooted (config : Config) (s : Session) : Prop where
  settled : Settled s
  constants : s.world.config = config
  step : s.clock.step = config.fixedStep
  tasks_of_idle : s.snapshot = none → s.scheduler.tasks = []

namespace Rooted

variable {s} {config : Config}

theorem stop (h : Rooted config s) : Rooted config s.stop :=
  ⟨s.settled_stop, h.constants, h.step, fun _ => rfl⟩

theorem continues {s' : Session} (h : Rooted config s) (worked : Continues s s')
    (lasting : s.snapshot.isSome = true) : Rooted config s' where
  settled := worked.settled h.settled
  constants := worked.config.trans h.constants
  step := worked.step.trans h.step
  tasks_of_idle ended := by
    rw [worked.snapshot] at ended
    rw [ended] at lasting
    contradiction

theorem ready (h : Rooted config s) :
    Rooted config s.ready ∧ s.ready.snapshot = none := by
  unfold Session.ready
  split
  · exact ⟨h.stop, rfl⟩
  · rename_i idle
    rw [h.settled.isRunning] at idle
    exact ⟨h, Option.not_isSome_iff_eq_none.1 idle⟩

theorem start (h : Rooted config s) (settings : Settings) : Rooted config (s.start settings) := by
  have opened : Rooted config (s.opened settings) :=
    { settled := ⟨congrArg World.running (World.showAllVars_eq _), iff_of_true rfl rfl⟩
      constants := (congrArg World.config (World.showAllVars_eq _)).trans h.ready.1.constants
      step := h.ready.1.step
      tasks_of_idle := by simp [Session.opened] }
  exact opened.continues (s.continues_start settings) rfl

theorem act (h : Rooted config s) (a : Action) : Rooted config (s.act a) := by
  have settled := settled_act h.settled a
  cases a with
  | load text =>
    simp only [Session.act, load] at settled ⊢
    cases hp : Project.parse text with
    | error e => exact h
    | ok project =>
      rw [hp] at settled
      exact ⟨settled, h.constants, h.step, fun _ => rfl⟩
  | setScripts id canvas =>
    simp only [Session.act, setScripts] at settled ⊢
    cases hs : s.world.scene.setScripts id canvas with
    | error e => exact h
    | ok scene =>
      rw [hs] at settled
      exact ⟨settled, h.constants, h.step, h.tasks_of_idle⟩
  | edit change => exact ⟨settled, h.constants, h.step, h.tasks_of_idle⟩
  | start settings => exact h.start settings
  | stop => exact h.stop
  | receive event => exact ⟨settled, h.constants, h.step, h.tasks_of_idle⟩
  | tick dt =>
    by_cases running : s.isRunning = true
    · have lasting := h.settled.isRunning.symm.trans running
      rcases s.proceeds_tick dt running with goesOn | ⟨last, worked, stopped⟩
      · exact h.continues goesOn lasting
      · rw [Session.act, stopped]
        exact (h.continues worked lasting).stop
    · rw [Session.act, Session.tick, if_neg running]
      exact ⟨⟨h.settled.running, h.settled.state⟩, h.constants, h.step, h.tasks_of_idle⟩
  | dispatch event target =>
    cases lasting : s.snapshot.isSome with
    | true => exact h.continues (s.continues_dispatch event target) lasting
    | false =>
      have idle : ¬ s.dispatcher.state = .running := by simp [h.settled.state, lasting]
      simp only [Session.act, dispatch, Dispatcher.dispatch, if_neg idle]
      exact h
  | removeObject id =>
    refine ⟨settled, (s.world.evolves_removeObject id).config.trans h.constants, h.step,
      fun ended => ?_⟩
    simp only [Session.act, removeObject, Scheduler.cancelOwner, h.tasks_of_idle ended,
      List.filter_nil]
  | drainNotices => exact ⟨settled, h.constants, h.step, h.tasks_of_idle⟩
  | resize width height => exact ⟨settled, h.constants, h.step, h.tasks_of_idle⟩

theorem actAll (h : Rooted config s) (actions : List Action) :
    Rooted config (s.actAll actions) := by
  induction actions generalizing s with
  | nil => exact h
  | cons a rest ih => exact ih (h.act a)

end Rooted

theorem rooted_ofConfig (config : Config) : Rooted config (ofConfig config) :=
  ⟨settled_ofConfig config, rfl, rfl, fun _ => rfl⟩

def fresh (config : Config) (scene : Scene) : Session where
  world := { World.ofConfig config with scene }
  clock := { step := config.fixedStep }

theorem opened_eq_fresh (settings : Settings) {config : Config}
    (constants : s.ready.world.config = config) (step : s.ready.clock.step = config.fixedStep)
    (tasks : s.ready.scheduler.tasks = []) :
    ∃ k m camera, s.opened settings =
      ((fresh config s.ready.world.scene).opened settings).renumber k m camera := by
  subst constants
  obtain ⟨m, scheduler⟩ : ∃ m, s.ready.scheduler =
      Scheduler.renumber s.ready.world.effects.nextId m {} :=
    ⟨s.ready.scheduler.nextId, by rw [Scheduler.renumber, List.map_nil, Nat.zero_add, ← tasks]⟩
  have clock : s.ready.clock.reset = ⟨s.ready.world.config.fixedStep, 0⟩ := by
    rw [FixedClock.reset, step]
  refine ⟨s.ready.world.effects.nextId, m, (s.opened settings).camera, ?_⟩
  simp only [opened, World.reset_eq_fresh s.ready.world, World.showAllVars_renumber, clock]
  rw [scheduler]
  rfl

/-- Any start is a first start, but for the numbers that were used up and the camera. -/
theorem start_eq_fresh {config : Config} (h : Rooted config s) (settings : Settings) :
    ∃ k m camera,
      s.start settings = ((fresh config s.savedScene).start settings).renumber k m camera := by
  obtain ⟨ready, idle⟩ := h.ready
  obtain ⟨k, m, camera, opened⟩ :=
    s.opened_eq_fresh settings ready.constants ready.step (ready.tasks_of_idle idle)
  rw [h.settled.scene_ready] at opened
  exact ⟨k, m, camera, by simp only [start_eq, opened, dispatch_renumber, flush_renumber]⟩

/-- Two sessions of the same configuration that would save the same scene play the same runs,
whatever happened to them before. Their tasks and effects may have other numbers, and the camera may
stand elsewhere. -/
theorem runs_independent_of_past (config : Config) (past past' : List Action)
    (same : ((ofConfig config).actAll past).savedScene =
      ((ofConfig config).actAll past').savedScene)
    (settings : Settings) (actions : List Action) :
    let s := ((ofConfig config).actAll past).start settings
    let s' := ((ofConfig config).actAll past').start settings
    let x := s.actAll actions
    let x' := s'.actAll actions
    x.world.scene = x'.world.scene ∧ x.world.vars = x'.world.vars ∧
    x.world.player = x'.world.player ∧ x.world.now = x'.world.now ∧
    x.isRunning = x'.isRunning ∧ x.scheduler.tasks.length = x'.scheduler.tasks.length ∧
    s.drains actions = s'.drains actions ∧
    ∃ (base : Session) (k k' m m' : Nat) (camera camera' : Camera),
      x = base.renumber k m camera ∧ x' = base.renumber k' m' camera' := by
  intro s s' x x'
  obtain ⟨k, m, camera, start⟩ :=
    ((ofConfig config).actAll past).start_eq_fresh ((rooted_ofConfig config).actAll past) settings
  obtain ⟨k', m', camera', start'⟩ :=
    ((ofConfig config).actAll past').start_eq_fresh ((rooted_ofConfig config).actAll past') settings
  rw [← same] at start'
  generalize (fresh config ((ofConfig config).actAll past).savedScene).start settings = first
    at start start'
  obtain ⟨⟨later, run⟩, drained⟩ :=
    first.actAll_renumber k m camera actions
  obtain ⟨⟨later', run'⟩, drained'⟩ :=
    first.actAll_renumber k' m' camera' actions
  rw [← start] at run drained
  rw [← start'] at run' drained'
  have eq : x = (first.actAll actions).renumber k m later := run
  have eq' : x' = (first.actAll actions).renumber k' m' later' := run'
  have tasks : ((first.actAll actions).renumber k m later).scheduler.tasks.length =
      ((first.actAll actions).renumber k' m' later').scheduler.tasks.length := by
    simp [renumber, Scheduler.renumber]
  rw [eq, eq']
  exact ⟨rfl, rfl, rfl, rfl, rfl, tasks, drained.trans drained'.symm,
    first.actAll actions, k, k', m, m', later, later', rfl, rfl⟩

section Example

def interrupted : List Action :=
  lone ++ [.start {}, .removeObject ⟨1⟩, .receive (.keyDown "w")]

/-- A start gives the same run in the middle of another one as without any run before. -/
theorem runs_independent_interrupted :
    ((ofConfig {}).actAll lone).savedScene = ((ofConfig {}).actAll interrupted).savedScene ∧
    ((ofConfig {}).actAll lone).isRunning = false ∧
    ((ofConfig {}).actAll interrupted).isRunning = true ∧
    ((ofConfig {}).actAll interrupted).world.scene.ids = [] ∧
    ((((ofConfig {}).actAll lone).start {}).actAll [.tick 0]).world.scene =
      ((((ofConfig {}).actAll interrupted).start {}).actAll [.tick 0]).world.scene := by
  have same : ((ofConfig {}).actAll lone).savedScene =
      ((ofConfig {}).actAll interrupted).savedScene := rfl
  exact ⟨same, rfl, rfl, rfl, (runs_independent_of_past {} lone interrupted same {} [.tick 0]).1⟩

end Example

end Session
end BlockStage
