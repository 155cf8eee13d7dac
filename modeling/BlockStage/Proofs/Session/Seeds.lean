import BlockStage.Proofs.Run.Reseeding
import BlockStage.Proofs.Session.Independence
import BlockStage.Proofs.Session.Timers

/-! The seed of a session. Where no script asks for chance, all that a session comes to is the same
under any seed, and its dice stay as the seed made them. -/

namespace BlockStage

def Scene.Diceless (s : Scene) : Prop :=
  ∀ o ∈ s.objects, ∀ script ∈ Stack.compileAll .standard o.scripts, BlockStage.Diceless script.body

theorem Scene.mem_modifyFirst {id : ObjectId} {f : SceneObject → SceneObject}
    {objects : List SceneObject} {o : SceneObject} (h : o ∈ modifyFirst id f objects) :
    o ∈ objects ∨ ∃ o', o = f o' := by
  induction objects with
  | nil => exact .inl h
  | cons first rest ih =>
    rw [modifyFirst] at h
    split at h
    all_goals rcases List.mem_cons.1 h with rfl | h
    · exact .inr ⟨first, rfl⟩
    · exact .inl (List.mem_cons_of_mem _ h)
    · exact .inl List.mem_cons_self
    · exact (ih h).imp_left (List.mem_cons_of_mem _)

namespace Scene.Diceless

variable {s : Scene}

theorem program (h : s.Diceless) : (Program.ofScene .standard s).Diceless := by
  intro e listed
  obtain ⟨o, there, listed⟩ := List.mem_flatMap.1 listed
  obtain ⟨script, compiled, rfl⟩ := List.mem_map.1 listed
  exact h o there script compiled

theorem start (h : s.Diceless) (now : Float) :
    (Dispatcher.start (.ofScene .standard s) now).Diceless := by
  refine ⟨h.program, fun t listed => ?_⟩
  obtain ⟨entry, compiled, made⟩ := List.mem_filterMap.1 listed
  unfold Timer.ofEntry? at made
  split at made
  · obtain rfl := Option.some.inj made
    exact h.program entry compiled
  · contradiction

theorem despawn (h : s.Diceless) (id : ObjectId) : (s.despawn id).Diceless :=
  fun o there => h o (List.mem_of_mem_eraseP there)

theorem modify (h : s.Diceless) {id : ObjectId} {f : SceneObject → SceneObject}
    (changed : ∀ o, ∀ script ∈ Stack.compileAll .standard (f o).scripts,
      BlockStage.Diceless script.body) : (s.modify id f).Diceless := by
  intro o there
  rcases mem_modifyFirst there with there | ⟨o, rfl⟩
  · exact h o there
  · exact changed o

end Scene.Diceless

namespace World

variable {seed : UInt64} (w : World)

theorem stepEffects_reseed (dt : Float32) :
    (w.reseed seed).stepEffects dt = (w.stepEffects dt).reseed seed := rfl

theorem advanceCountdown_reseed (dt : Float) :
    (w.reseed seed).advanceCountdown dt = (w.advanceCountdown dt).reseed seed := by
  have countdown : (w.reseed seed).countdown = w.countdown := rfl
  simp only [advanceCountdown, countdown, reseed_vars]
  cases w.countdown with
  | none => rfl
  | some left =>
    by_cases same : (Scalar.ceil (Scalar.larger (left - dt) 0) == w.vars.get "timer") = true <;>
      by_cases ended : left - dt ≤ 0 <;> simp only [same, ended, if_true, if_false] <;> rfl

end World

namespace Session

variable (seed : UInt64) {s : Session}

def reseed (seed : UInt64) (s : Session) : Session := { s with world := s.world.reseed seed }

/-- Nothing is drawn in what is launched or goes on. -/
structure Diceless (s : Session) : Prop where
  dispatcher : s.dispatcher.Diceless
  tasks : s.scheduler.Diceless

@[simp] theorem isRunning_reseed : (s.reseed seed).isRunning = s.isRunning := rfl

theorem stop_reseed : (s.reseed seed).stop = s.stop.reseed seed := rfl

theorem diceless_of_idle {s : Session} (program : s.dispatcher.program = {})
    (timers : s.dispatcher.timers = []) (tasks : s.scheduler.tasks = []) : s.Diceless :=
  ⟨⟨by simp [Program.Diceless, program], by simp [timers]⟩, by simp [Scheduler.Diceless, tasks]⟩

theorem diceless_stop (s : Session) : s.stop.Diceless := diceless_of_idle rfl rfl rfl

theorem dispatch_reseed (h : s.Diceless) (event : Event) (target : Option ObjectId) :
    (s.reseed seed).dispatch event target =
        ((s.dispatch event target).1, (s.dispatch event target).2.reseed seed) ∧
      (s.dispatch event target).2.Diceless := by
  obtain ⟨dispatched, tasks⟩ :=
    Dispatcher.dispatch_reseed seed h.dispatcher event target h.tasks s.world
  exact ⟨by simp only [dispatch, reseed, dispatched], ⟨h.dispatcher, tasks⟩⟩

theorem flushUpTo_reseed (h : s.Diceless) (budget : Nat) :
    (s.reseed seed).flushUpTo budget = (s.flushUpTo budget).reseed seed ∧
      (s.flushUpTo budget).Diceless := by
  induction budget generalizing s with
  | zero => exact ⟨rfl, h⟩
  | succ budget ih =>
    have raised : (s.reseed seed).world.popRaised? =
        s.world.popRaised?.map fun (r, world) => (r, world.reseed seed) := by
      change (s.world.raised.pop?).map _ = ((s.world.raised.pop?).map _).map _
      rw [Option.map_map]
      rfl
    rw [flushUpTo, flushUpTo, raised]
    cases s.world.popRaised? with
    | none => exact ⟨rfl, h⟩
    | some popped =>
      obtain ⟨r, world⟩ := popped
      obtain ⟨dispatched, left⟩ :=
        dispatch_reseed seed (s := { s with world }) ⟨h.dispatcher, h.tasks⟩ r.event
          r.target
      change (({ s with world }.reseed seed).dispatch r.event r.target).2.flushUpTo budget = _ ∧ _
      rw [dispatched]
      exact ih left

theorem flush_reseed (h : s.Diceless) :
    (s.reseed seed).flush = s.flush.reseed seed ∧ s.flush.Diceless :=
  flushUpTo_reseed seed h _

/-! ### Frames -/

theorem fireTimers_reseed (h : s.Diceless) :
    (s.reseed seed).fireTimers = s.fireTimers.reseed seed ∧ s.fireTimers.Diceless := by
  obtain ⟨fired, dispatcher, tasks⟩ :=
    Dispatcher.fireTimers_reseed seed h.dispatcher h.tasks s.world
  exact ⟨by simp only [fireTimers, reseed, fired], ⟨dispatcher, tasks⟩⟩

theorem movePlayer_reseed (steps : Nat) :
    (s.reseed seed).movePlayer steps = (s.movePlayer steps).reseed seed := rfl

theorem touchNearby_reseed (h : s.Diceless) :
    (s.reseed seed).touchNearby = s.touchNearby.reseed seed ∧ s.touchNearby.Diceless := by
  have touched (ids : List ObjectId) {s : Session} (h : s.Diceless) :
      let touch := fun (s : Session) id => (s.dispatch (.collide "player") (some id)).2
      ids.foldl touch (s.reseed seed) = (ids.foldl touch s).reseed seed ∧
        (ids.foldl touch s).Diceless := by
    induction ids generalizing s with
    | nil => exact ⟨rfl, h⟩
    | cons id rest ih =>
      obtain ⟨dispatched, left⟩ := dispatch_reseed seed h (.collide "player") (some id)
      simp only [List.foldl_cons, dispatched]
      exact ih left
  exact touched _ h

theorem stepEffects_reseed (steps : Nat) :
    (s.reseed seed).stepEffects steps = (s.stepEffects steps).reseed seed := by
  have stepped (dt : Float32) (w : World) :
      Nat.repeat (·.stepEffects dt) steps (w.reseed seed) =
        (Nat.repeat (·.stepEffects dt) steps w).reseed seed := by
    induction steps with
    | zero => rfl
    | succ steps ih => simp only [Nat.repeat, ih, World.stepEffects_reseed]
  simp only [stepEffects, reseed, stepped]

theorem tickTasks_reseed (h : s.Diceless) :
    (s.reseed seed).tickTasks = s.tickTasks.reseed seed ∧ s.tickTasks.Diceless := by
  obtain ⟨ticked, tasks⟩ :=
    Scheduler.tick_reseed seed h.dispatcher.program h.tasks s.world
  exact ⟨by simp only [tickTasks, reseed, ticked], ⟨h.dispatcher, tasks⟩⟩

theorem advance_reseed (h : s.Diceless) (dt : Float) :
    (s.reseed seed).advance dt = (s.advance dt).reseed seed ∧ (s.advance dt).Diceless := by
  obtain ⟨fired, left⟩ := fireTimers_reseed seed h
  rcases hc : s.fireTimers.clock.accumulate (Scalar.narrow dt) with ⟨steps, clock⟩
  have clocks : (s.fireTimers.reseed seed).clock = s.fireTimers.clock := rfl
  obtain ⟨touched, left⟩ := touchNearby_reseed seed
    (s := { s.fireTimers with clock }.movePlayer steps) ⟨left.dispatcher, left.tasks⟩
  generalize moved : ({ s.fireTimers with clock }.movePlayer steps).touchNearby.stepEffects
    steps = s' at *
  have moved' : ({ s.fireTimers.reseed seed with clock }.movePlayer steps).touchNearby.stepEffects
      steps = s'.reseed seed := by
    have clocked : ({ s.fireTimers.reseed seed with clock } : Session) =
        ({ s.fireTimers with clock } : Session).reseed seed := rfl
    rw [clocked, movePlayer_reseed, touched, stepEffects_reseed, moved]
  have left : s'.Diceless := moved ▸ ⟨left.dispatcher, left.tasks⟩
  obtain ⟨ticked, left⟩ := tickTasks_reseed seed (s := { s' with
    camera := s'.camera.follow s'.world.player (Scalar.narrow dt)
    world := s'.world.advanceCountdown dt }) ⟨left.dispatcher, left.tasks⟩
  obtain ⟨flushed, left⟩ := flush_reseed seed left
  have before : s.advance dt = { s' with
      camera := s'.camera.follow s'.world.player (Scalar.narrow dt)
      world := s'.world.advanceCountdown dt }.tickTasks.flush := by
    simp only [advance, hc, moved]
  have after : (s.reseed seed).advance dt = { s'.reseed seed with
      camera := s'.camera.follow s'.world.player (Scalar.narrow dt)
      world := (s'.world.reseed seed).advanceCountdown dt }.tickTasks.flush := by
    simp only [advance, fired, clocks, hc, moved']
    rfl
  rw [before, after, World.advanceCountdown_reseed]
  refine ⟨?_, left⟩
  rw [← flushed, ← ticked]
  rfl

/-! ### Input -/

theorem handle_reseed (h : s.Diceless) (event : InputEvent) :
    (s.reseed seed).handle event = (s.handle event).reseed seed ∧ (s.handle event).Diceless := by
  cases event with
  | keyDown key =>
    simp only [handle, press]
    split
    · exact ⟨rfl, s.diceless_stop⟩
    · obtain ⟨dispatched, left⟩ :=
        dispatch_reseed seed (s := s.modifyInput (·.press (keyLabel key)))
          ⟨h.dispatcher, h.tasks⟩ (.key (keyLabel key)) none
      exact ⟨congrArg Prod.snd dispatched, left⟩
  | keyUp key => exact ⟨rfl, ⟨h.dispatcher, h.tasks⟩⟩
  | click object =>
    obtain ⟨dispatched, left⟩ := dispatch_reseed seed h .click (some object)
    exact ⟨congrArg Prod.snd dispatched, left⟩
  | pointer delta => exact ⟨rfl, ⟨h.dispatcher, h.tasks⟩⟩
  | target point => exact ⟨rfl, ⟨h.dispatcher, h.tasks⟩⟩

theorem handleAll_reseed (h : s.Diceless) (events : List InputEvent) :
    handleAll events (s.reseed seed) = (handleAll events s).reseed seed ∧
      (handleAll events s).Diceless := by
  induction events generalizing s with
  | nil => exact ⟨rfl, h⟩
  | cons event rest ih =>
    obtain ⟨handled, left⟩ := handle_reseed seed h event
    simp only [handleAll, handled, isRunning_reseed]
    by_cases running : (s.handle event).isRunning = true
    · simp only [running, if_true]
      exact ih left
    · simp only [running]
      exact ⟨rfl, left⟩

theorem tick_reseed (h : s.Diceless) (dt : Float32) :
    (s.reseed seed).tick dt = (s.tick dt).reseed seed ∧ (s.tick dt).Diceless := by
  by_cases running : s.isRunning = true
  · obtain ⟨handled, left⟩ : (s.reseed seed).atTimers dt = (s.atTimers dt).reseed seed ∧
        (s.atTimers dt).Diceless :=
      handleAll_reseed seed (s := s.later dt) ⟨h.dispatcher, h.tasks⟩ s.inbox.toList
    have ticks (s : Session) (running : s.isRunning = true) : s.tick dt =
        if (s.atTimers dt).isRunning then (s.atTimers dt).advance (frameTime dt)
        else s.atTimers dt := if_pos running
    rw [ticks s running, ticks _ (by exact running), handled]
    by_cases still : (s.atTimers dt).isRunning = true
    · rw [if_pos still, if_pos (by exact still)]
      exact advance_reseed seed left _
    · rw [if_neg still, if_neg (by exact still)]
      exact ⟨rfl, left⟩
  · rw [tick, tick, if_neg running, if_neg (by exact running)]
    exact ⟨rfl, ⟨h.dispatcher, h.tasks⟩⟩

/-! ### Everything that can happen -/

theorem ready_reseed : (s.reseed seed).ready = s.ready.reseed seed := by
  by_cases running : s.isRunning = true
  · rw [ready, ready, if_pos running, isRunning_reseed, if_pos running, stop_reseed]
  · rw [ready, ready, if_neg running, isRunning_reseed, if_neg running]

theorem diceless_ready (h : s.Diceless) : s.ready.Diceless := by
  unfold ready
  split
  · exact s.diceless_stop
  · exact h

theorem start_reseed (h : s.Diceless) (sure : s.ready.world.scene.Diceless) (settings : Settings) :
    (s.reseed seed).start settings = (s.start settings).reseed seed ∧
      (s.start settings).Diceless := by
  have opened : (s.reseed seed).opened settings = (s.opened settings).reseed seed := by
    simp only [Session.opened, ready_reseed, World.showAllVars_eq]
    rfl
  have left : (s.opened settings).Diceless := by
    obtain ⟨now, dispatcher⟩ : ∃ now, (s.opened settings).dispatcher =
        .start (.ofScene .standard s.ready.world.scene) now := ⟨_, rfl⟩
    have scheduler : (s.opened settings).scheduler = s.ready.scheduler := by
      simp only [Session.opened]
    constructor
    · rw [dispatcher]
      exact sure.start now
    · rw [scheduler]
      exact (diceless_ready h).tasks
  obtain ⟨started, left⟩ := dispatch_reseed seed left .start none
  obtain ⟨levelled, left⟩ := dispatch_reseed seed left .levelStart none
  rw [start_eq, start_eq, opened, started, levelled]
  exact flush_reseed seed left

def Action.Diceless : Action → Prop
  | .load text => ∀ project, Project.parse text = .ok project → project.toScene.Diceless
  | .setScripts _ canvas =>
    ∀ script ∈ Stack.compileAll .standard canvas, BlockStage.Diceless script.body
  | .edit change => ∀ scene : Scene, scene.Diceless → (change scene).Diceless
  | _ => True

/-- Nothing is drawn now, in this run or in the next ones. -/
structure Sober (s : Session) : Prop where
  diceless : s.Diceless
  settled : Settled s
  saved : s.savedScene.Diceless

theorem sober_ofConfig (config : Config) : (ofConfig config).Sober :=
  ⟨diceless_of_idle rfl rfl rfl, settled_ofConfig config, List.forall_mem_nil _⟩

theorem Sober.withScene (h : s.Sober) {world : World} (running : world.running = s.world.running)
    (scene : s.world.scene.Diceless → world.scene.Diceless) : { s with world }.Sober := by
  refine ⟨⟨h.diceless.dispatcher, h.diceless.tasks⟩, h.settled.withScene world running, ?_⟩
  have saved := h.saved
  unfold savedScene at saved ⊢
  dsimp only
  cases kept : s.snapshot with
  | none =>
    rw [kept] at saved
    exact scene saved
  | some before =>
    rw [kept] at saved
    exact saved

theorem act_reseed (h : s.Sober) {a : Action} (diceless : a.Diceless) :
    (s.reseed seed).act a = (s.act a).reseed seed ∧ (s.act a).Sober := by
  cases a with
  | load text =>
    simp only [act, load]
    cases parsed : Project.parse text with
    | error e => exact ⟨rfl, h⟩
    | ok project =>
      exact ⟨rfl, diceless_of_idle rfl rfl rfl, s.settled_stop.withScene _ rfl,
        diceless project parsed⟩
  | setScripts id canvas =>
    have scene : (s.reseed seed).world.scene = s.world.scene := rfl
    simp only [act, setScripts, scene]
    cases edited : s.world.scene.setScripts id canvas with
    | error e => exact ⟨rfl, h⟩
    | ok scene =>
      refine ⟨rfl, h.withScene rfl fun before => ?_⟩
      obtain ⟨-, rfl⟩ := Scene.setScripts_eq_ok edited
      exact before.modify fun _ => diceless
  | edit change => exact ⟨rfl, h.withScene rfl (diceless s.world.scene)⟩
  | start settings =>
    obtain ⟨settled, kept, -⟩ := h.settled.start settings
    have ready : s.ready.world.scene.Diceless := by
      rw [h.settled.scene_ready]
      exact h.saved
    obtain ⟨started, left⟩ := start_reseed seed h.diceless ready settings
    refine ⟨started, left, settled, ?_⟩
    rw [act, savedScene, kept]
    exact h.saved
  | stop => exact ⟨rfl, s.diceless_stop, s.settled_stop, h.saved⟩
  | receive event => exact ⟨rfl, ⟨h.diceless.1, h.diceless.2⟩, ⟨h.settled.1, h.settled.2⟩, h.saved⟩
  | tick dt =>
    obtain ⟨ticked, left⟩ := tick_reseed seed h.diceless dt
    obtain ⟨settled, same⟩ := h.settled.tick dt
    exact ⟨ticked, left, settled, by rw [act, same]; exact h.saved⟩
  | dispatch event target =>
    obtain ⟨dispatched, left⟩ := dispatch_reseed seed h.diceless event target
    obtain ⟨settled, same⟩ := h.settled.dispatch event target
    exact ⟨congrArg Prod.snd dispatched, left, settled, by rw [act, same]; exact h.saved⟩
  | removeObject id =>
    have removed : (s.world.reseed seed).removeObject id = (s.world.removeObject id).reseed seed :=
      s.world.reseed_removeObject id
    have scene (before : s.world.scene.Diceless) : (s.world.removeObject id).scene.Diceless := by
      unfold World.removeObject
      split
      · exact before.despawn id
      · exact before
    have left := h.withScene (s.world.evolves_removeObject id).running scene
    refine ⟨?_, ⟨h.diceless.dispatcher, h.diceless.tasks.cancelOwner id⟩, ⟨left.settled.1,
      left.settled.2⟩, left.saved⟩
    simp only [act, removeObject, reseed, removed]
  | drainNotices => exact ⟨rfl, h.withScene rfl fun scene => scene⟩
  | resize width height =>
    exact ⟨rfl, ⟨h.diceless.1, h.diceless.2⟩, ⟨h.settled.1, h.settled.2⟩, h.saved⟩

theorem actAll_reseed (h : s.Sober) {actions : List Action} (diceless : ∀ a ∈ actions, a.Diceless) :
    (s.reseed seed).actAll actions = (s.actAll actions).reseed seed ∧
      (s.reseed seed).drains actions = s.drains actions := by
  induction actions generalizing s with
  | nil => exact ⟨rfl, rfl⟩
  | cons a rest ih =>
    rw [List.forall_mem_cons] at diceless
    obtain ⟨acted, sober⟩ := act_reseed seed h diceless.1
    obtain ⟨later, drained⟩ := ih sober diceless.2
    refine ⟨?_, ?_⟩
    · simpa only [actAll, List.foldl_cons, acted] using later
    · cases a <;> simp only [drains, acted, drained]
      rfl

/-- Where no script asks for chance or particles, neither at first nor later, two sessions that
differ in the seed alone are told the same and come to the same, apart from the seed and the dice;
and the dice of both are still as their seeds made them. -/
theorem seeds_make_no_difference (config config' : Config)
    (alike : config' = { config with seed := config'.seed }) {actions : List Action}
    (diceless : ∀ a ∈ actions, a.Diceless) :
    let s := (ofConfig config).actAll actions
    let s' := (ofConfig config').actAll actions
    s' = { s with world := { s.world with
      config := { s.world.config with seed := config'.seed }, dice := .ofSeed config'.seed } } ∧
    s.world.dice = .ofSeed config.seed ∧
    (ofConfig config').drains actions = (ofConfig config).drains actions := by
  intro s s'
  have sober := sober_ofConfig config
  have other : (ofConfig config).reseed config'.seed = ofConfig config' :=
    (congrArg ofConfig alike).symm
  obtain ⟨same, told⟩ := actAll_reseed config'.seed sober diceless
  rw [other] at same told
  -- Under its own seed the session is itself, so its dice are those of the seed.
  obtain ⟨own, -⟩ := actAll_reseed config.seed sober diceless
  exact ⟨same, congrArg (·.world.dice) own, told⟩

section Example

theorem diceless_alone : alone.Diceless := by
  intro o there script compiled
  obtain rfl := List.mem_singleton.1 there
  obtain rfl := List.mem_singleton.1 (show script ∈ [⟨.timer 0.25, _, [score]⟩] from compiled)
  intro i nested
  cases nested with
  | here h => rw [List.mem_singleton.1 h]; trivial
  | child h inside =>
    rw [List.mem_singleton.1 h] at inside
    cases inside <;> contradiction
  | elseChild h inside =>
    rw [List.mem_singleton.1 h] at inside
    cases inside <;> contradiction

def counting : List Action := [.edit fun _ => alone, .start {}, .tick 0.25, .drainNotices]

theorem counting_under_two_seeds :
    ({ seed := 2 } : Config) = { ({ seed := 1 } : Config) with seed := 2 } ∧
    (∀ a ∈ counting, a.Diceless) ∧
    ((ofConfig { seed := 1 }).actAll counting).world.dice = .ofSeed 1 ∧
    (ofConfig { seed := 2 }).drains counting = (ofConfig { seed := 1 }).drains counting := by
  have diceless : ∀ a ∈ counting, a.Diceless :=
    List.forall_mem_cons.2 ⟨fun _ _ => diceless_alone, by simp [Action.Diceless]⟩
  obtain ⟨-, dice, told⟩ :=
    seeds_make_no_difference { seed := 1 } { seed := 2 } rfl diceless
  exact ⟨rfl, diceless, dice, told⟩

end Example

end Session
end BlockStage
