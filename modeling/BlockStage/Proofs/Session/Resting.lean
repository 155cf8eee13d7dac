import BlockStage.Proofs.Session.Edits
import BlockStage.Proofs.Session.Playing
import BlockStage.Proofs.Session.Restoring

/-! What is left of a run when it is over: nothing that could ever move again. Then frames and
events, however many, come to nothing. -/

namespace BlockStage.Session

/-- Nothing waits, nothing is under way and no key is held. -/
structure AtRest (s : Session) : Prop where
  tasks : s.scheduler.tasks = []
  timers : s.dispatcher.timers = []
  entries : s.dispatcher.program.entries = []
  effects : s.world.effects.records = []
  raised : s.world.raised.toList = []
  countdown : s.world.countdown = none
  held : s.world.input.held = []

variable {s : Session}

theorem atRest_ofConfig (config : Config) : (ofConfig config).AtRest :=
  ⟨rfl, rfl, rfl, rfl, rfl, rfl, rfl⟩

theorem atRest_stop (s : Session) : s.stop.AtRest := ⟨rfl, rfl, rfl, rfl, rfl, rfl, rfl⟩

namespace AtRest

theorem of_same (h : s.AtRest) {s' : Session} (scheduler : s'.scheduler = s.scheduler)
    (dispatcher : s'.dispatcher = s.dispatcher) (effects : s'.world.effects = s.world.effects)
    (raised : s'.world.raised = s.world.raised) (countdown : s'.world.countdown = s.world.countdown)
    (input : s'.world.input = s.world.input) : s'.AtRest where
  tasks := by rw [scheduler, h.tasks]
  timers := by rw [dispatcher, h.timers]
  entries := by rw [dispatcher, h.entries]
  effects := by rw [effects, h.effects]
  raised := by rw [raised, h.raised]
  countdown := by rw [countdown, h.countdown]
  held := by rw [input, h.held]

theorem removeObject (h : s.AtRest) (id : ObjectId) : (s.removeObject id).AtRest := by
  have tasks : (s.removeObject id).scheduler.tasks = [] := by
    change s.scheduler.tasks.filter _ = []
    rw [h.tasks, List.filter_nil]
  have effects : (s.world.removeObject id).effects.records = [] := by
    unfold World.removeObject
    split
    · change s.world.effects.records.filter _ = []
      rw [h.effects, List.filter_nil]
    · exact h.effects
  have others : (s.world.removeObject id).raised = s.world.raised ∧
      (s.world.removeObject id).countdown = s.world.countdown ∧
      (s.world.removeObject id).input = s.world.input := by
    unfold World.removeObject
    split <;> exact ⟨rfl, rfl, rfl⟩
  exact ⟨tasks, h.timers, h.entries, effects, others.1 ▸ h.raised, others.2.1 ▸ h.countdown,
    others.2.2 ▸ h.held⟩

end AtRest

theorem dispatch_of_idle (h : Settled s) (idle : s.isRunning = false) (event : Event)
    (target : Option ObjectId) : s.dispatch event target = (0, s) := by
  have waits : ¬ s.dispatcher.state = .running := by
    rw [h.state, ← h.isRunning, idle]
    exact Bool.false_ne_true
  simp only [dispatch, Dispatcher.dispatch, if_neg waits]

theorem tick_of_idle (idle : s.isRunning = false) (dt : Float32) :
    s.tick dt = { s with inbox := {} } := by
  rw [tick, idle, if_neg Bool.false_ne_true]

theorem atRest_act (h : Settled s) (rests : s.isRunning = false → s.AtRest) (a : Action)
    (idle : (s.act a).isRunning = false) : (s.act a).AtRest := by
  cases a with
  | load text =>
    simp only [act, load] at idle ⊢
    cases parsed : Project.parse text with
    | error e => exact rests (by rwa [parsed] at idle)
    | ok project => exact s.atRest_stop.of_same rfl rfl rfl rfl rfl rfl
  | setScripts id canvas =>
    simp only [act] at idle ⊢
    cases edited : s.setScripts id canvas with
    | error e => exact rests (by rwa [edited] at idle)
    | ok s' =>
      rw [edited] at idle
      obtain ⟨scene, -, rfl⟩ := setScripts_eq_ok edited
      exact (rests idle).of_same rfl rfl rfl rfl rfl rfl
  | edit change => exact (rests idle).of_same rfl rfl rfl rfl rfl rfl
  | start settings =>
    obtain ⟨started, snapshot, -⟩ := h.start settings
    have running : (s.start settings).isRunning = true := by
      rw [started.isRunning, snapshot, Option.isSome_some]
    exact absurd (running.symm.trans idle) (by simp)
  | stop => exact s.atRest_stop
  | receive event => exact (rests idle).of_same rfl rfl rfl rfl rfl rfl
  | tick dt =>
    by_cases running : s.isRunning = true
    · rcases s.proceeds_tick dt running with goesOn | ⟨last, -, stopped⟩
      · exact absurd ((goesOn.isRunning.trans running).symm.trans idle) (by simp)
      · simp only [act, stopped]
        exact last.atRest_stop
    · rw [Bool.not_eq_true] at running
      simp only [act, tick_of_idle running]
      exact (rests running).of_same rfl rfl rfl rfl rfl rfl
  | dispatch event target =>
    have before : s.isRunning = false := (s.continues_dispatch event target).isRunning ▸ idle
    simp only [act, dispatch_of_idle h before]
    exact rests before
  | removeObject id =>
    have same : (s.act (.removeObject id)).isRunning = s.isRunning :=
      congrArg (· && decide (s.dispatcher.state = .running))
        (s.world.evolves_removeObject id).running
    exact (rests (same ▸ idle)).removeObject id
  | drainNotices => exact (rests idle).of_same rfl rfl rfl rfl rfl rfl
  | resize width height => exact (rests idle).of_same rfl rfl rfl rfl rfl rfl

theorem atRest_actAll (h : Settled s) (rests : s.isRunning = false → s.AtRest)
    (actions : List Action) (idle : (s.actAll actions).isRunning = false) :
    (s.actAll actions).AtRest := by
  induction actions generalizing s with
  | nil => exact rests idle
  | cons a rest ih => exact ih (settled_act h a) (atRest_act h rests a) idle

/-! ### At rest -/

def Action.Prompts : Action → Prop
  | tick _ | dispatch _ _ | receive _ => True
  | _ => False

theorem act_of_idle (h : Settled s) (idle : s.isRunning = false) {a : Action}
    (prompts : a.Prompts) : ∃ inbox, s.act a = { s with inbox } := by
  cases a with
  | receive event => exact ⟨_, rfl⟩
  | tick dt => exact ⟨_, tick_of_idle idle dt⟩
  | dispatch event target => exact ⟨s.inbox, by simp only [act, dispatch_of_idle h idle]⟩
  | load | setScripts | edit | start | stop | removeObject | drainNotices | resize =>
    exact prompts.elim

theorem actAll_of_idle (h : Settled s) (idle : s.isRunning = false) {actions : List Action}
    (prompts : ∀ a ∈ actions, a.Prompts) : ∃ inbox, s.actAll actions = { s with inbox } := by
  induction actions generalizing s with
  | nil => exact ⟨s.inbox, rfl⟩
  | cons a rest ih =>
    rw [List.forall_mem_cons] at prompts
    obtain ⟨inbox, now⟩ := act_of_idle h idle prompts.1
    have same : s.actAll (a :: rest) = ({ s with inbox } : Session).actAll rest :=
      congrArg (actAll · rest) now
    obtain ⟨inbox', later⟩ := ih (s := { s with inbox }) ⟨h.running, h.state⟩ idle prompts.2
    exact ⟨inbox', same.trans later⟩

/-- Whether a run lasts can be told alike from the world, the dispatcher and the snapshot, after
whatever happened. When none lasts the session is at rest: no frame, event or input changes anything
but what waits in the inbox, and no event launches a script. -/
theorem runs_or_rests (config : Config) (history : List Action) :
    let s := (ofConfig config).actAll history
    ((s.world.running = true ↔ s.dispatcher.state = .running) ∧
      (s.world.running = true ↔ s.snapshot.isSome = true)) ∧
    (s.world.running = false → s.AtRest ∧
      ∀ actions : List Action, (∀ a ∈ actions, a.Prompts) →
        let t := s.actAll actions
        t = { s with inbox := t.inbox } ∧
          ∀ event target, t.dispatch event target = (0, t)) := by
  intro s
  have settled : Settled s := settled_actAll (settled_ofConfig config) history
  refine ⟨⟨?_, by rw [settled.running]⟩, fun off => ?_⟩
  · rw [settled.running, settled.state]
  · have idle : s.isRunning = false := by
      rw [isRunning, off, Bool.false_and]
    refine ⟨atRest_actAll (settled_ofConfig config) (fun _ => atRest_ofConfig config) history idle,
      fun actions prompts => ?_⟩
    intro t
    obtain ⟨inbox, same⟩ := actAll_of_idle settled idle prompts
    have same : t = { s with inbox } := same
    refine ⟨by rw [same], fun event target => ?_⟩
    rw [same]
    have settled : Settled { s with inbox } := ⟨settled.running, settled.state⟩
    exact dispatch_of_idle settled idle event target

section Example

/-- A key is pressed in front of the one that stops the run, and is not held afterwards. -/
theorem rests_after_stop_key :
    let history := lone ++ .start {} :: .receive (.keyDown "w") :: removing
    let s := (ofConfig {}).actAll history
    s.world.running = false ∧ s.AtRest ∧
      (s.actAll [.tick 1, .dispatch .click (some ⟨1⟩)]).world = s.world := by
  intro history s
  have off : s.world.running = false := rfl
  obtain ⟨-, rests⟩ := runs_or_rests {} history
  obtain ⟨atRest, still⟩ := rests off
  have prompts : ∀ a ∈ [Action.tick 1, .dispatch .click (some ⟨1⟩)], a.Prompts := by
    simp [Action.Prompts]
  exact ⟨off, atRest, congrArg world (still _ prompts).1⟩

end Example

end BlockStage.Session
