import BlockStage.Proofs.Log.Chronicle
import BlockStage.Proofs.Session.Identity

/-! The log of a run of a session, from its first event on and frame by frame, up to the stop. -/

namespace BlockStage

def World.animationLog (dt : Float32) : (steps : Nat) → World → Log
  | 0, _ => []
  | steps + 1, w =>
    w.animationLog dt steps ++ [.animates dt (Nat.repeat (·.stepEffects dt) steps w)]

theorem World.chronicle_animation (dt : Float32) (steps : Nat) (s : Scheduler) (w : World) :
    Chronicle (s, w) (w.animationLog dt steps) (s, Nat.repeat (·.stepEffects dt) steps w) := by
  induction steps with
  | zero => exact .refl (s, w)
  | succ steps ih => exact ih.trans (.single (.animate dt s _))

theorem World.alike_advanceCountdown (w : World) (dt : Float) :
    w.Alike (w.advanceCountdown dt) := by
  unfold advanceCountdown
  split
  · exact ⟨rfl, rfl⟩
  · dsimp only
    split <;> split <;> exact ⟨rfl, rfl⟩

namespace Session

def moment (s : Session) : Moment := (s.scheduler, s.world)

def Records (s : Session) (log : Log) (s' : Session) : Prop := Chronicle s.moment log s'.moment

variable {s s' s'' : Session} {log log' : Log}

theorem Records.nothing (s : Session) : s.Records [] s := .refl _

theorem Records.trans (first : s.Records log s') (second : s'.Records log' s'') :
    s.Records (log ++ log') s'' :=
  Chronicle.trans first second

theorem Records.aside (tasks : s'.scheduler = s.scheduler) (alike : s.world.Alike s'.world) :
    s.Records [] s' := by
  have aside : Episode s.moment [] s'.moment := by
    rw [moment, moment, tasks]
    exact .aside alike s.scheduler
  exact .single aside

theorem Records.prepend (h : s'.Records log s'') (tasks : s'.scheduler = s.scheduler)
    (alike : s.world.Alike s'.world) : s.Records log s'' :=
  (Records.aside tasks alike).trans h

/-! ### Dispatches and flushes -/

def dispatchLog (s : Session) (event : Event) (target : Option ObjectId) : Log :=
  s.dispatcher.dispatchLog event target s.scheduler s.world

theorem records_dispatch (s : Session) (event : Event) (target : Option ObjectId) :
    s.Records (s.dispatchLog event target) (s.dispatch event target).2 :=
  s.dispatcher.chronicle_dispatch event target s.scheduler s.world

def flushUpToLog : (budget : Nat) → Session → Log
  | 0, _ => []
  | budget + 1, s =>
    match s.world.popRaised? with
    | none => []
    | some (raised, world) =>
      { s with world }.dispatchLog raised.event raised.target ++
        flushUpToLog budget ({ s with world }.dispatch raised.event raised.target).2

def flushLog (s : Session) : Log := s.flushUpToLog s.world.config.eventsPerFrame

theorem records_flushUpTo (budget : Nat) (s : Session) :
    s.Records (s.flushUpToLog budget) (s.flushUpTo budget) := by
  induction budget generalizing s with
  | zero => exact .nothing s
  | succ budget ih =>
    simp only [flushUpTo, flushUpToLog]
    cases popped : s.world.popRaised? with
    | none => exact .nothing s
    | some next =>
      obtain ⟨queue, -, rfl⟩ := Option.map_eq_some_iff.1 popped
      have delivered := records_dispatch { s with world.raised := queue.2 } queue.1.event
        queue.1.target
      exact (delivered.trans (ih _)).prepend rfl ⟨rfl, rfl⟩

theorem records_flush (s : Session) : s.Records s.flushLog s.flush := records_flushUpTo _ s

/-! ### Frames -/

def touchAllLog : List ObjectId → Session → Log
  | [], _ => []
  | id :: rest, s =>
    s.dispatchLog (.collide "player") (some id) ++
      touchAllLog rest (s.dispatch (.collide "player") (some id)).2

def touchNearbyLog (s : Session) : Log :=
  touchAllLog (s.world.player.nearby s.world.scene s.world.config.interactionRadius) s

theorem records_touchNearby (s : Session) : s.Records s.touchNearbyLog s.touchNearby := by
  have touched (ids : List ObjectId) (s : Session) : s.Records (touchAllLog ids s)
      (ids.foldl (fun s id => (s.dispatch (.collide "player") (some id)).2) s) := by
    induction ids generalizing s with
    | nil => exact .nothing s
    | cons id rest ih => exact (s.records_dispatch _ _).trans (ih _)
  exact touched _ s

theorem records_stepEffects (s : Session) (steps : Nat) :
    s.Records (s.world.animationLog s.clock.step steps) (s.stepEffects steps) :=
  s.world.chronicle_animation s.clock.step steps s.scheduler

def tickTasksLog (s : Session) : Log := s.scheduler.tickLog s.dispatcher.program s.world

theorem records_tickTasks (s : Session) : s.Records s.tickTasksLog s.tickTasks :=
  s.scheduler.chronicle_tick s.dispatcher.program s.world

def advanceLog (s : Session) (dt : Float) : Log :=
  let fired := s.fireTimers
  let (steps, clock) := fired.clock.accumulate (Scalar.narrow dt)
  let moved := { fired with clock }.movePlayer steps
  let touched := moved.touchNearby
  let stepped := touched.stepEffects steps
  let counted : Session := { stepped with
    camera := stepped.camera.follow stepped.world.player (Scalar.narrow dt)
    world := stepped.world.advanceCountdown dt }
  s.dispatcher.fireLog s.scheduler s.world ++ moved.touchNearbyLog ++
    touched.world.animationLog touched.clock.step steps ++ counted.tickTasksLog ++
    counted.tickTasks.flushLog

theorem records_movePlayer (s : Session) (clock : FixedClock) (steps : Nat) :
    s.Records [] ({ s with clock }.movePlayer steps) := .aside rfl ⟨rfl, rfl⟩

theorem records_count (s : Session) (camera : Camera) (dt : Float) :
    s.Records [] { s with camera, world := s.world.advanceCountdown dt } :=
  .aside rfl (s.world.alike_advanceCountdown dt)

theorem records_advance (s : Session) (dt : Float) :
    s.Records (s.advanceLog dt) (s.advance dt) := by
  have fired : s.Records (s.dispatcher.fireLog s.scheduler s.world) s.fireTimers :=
    s.dispatcher.chronicle_fireTimers s.scheduler s.world
  rcases hc : s.fireTimers.clock.accumulate (Scalar.narrow dt) with ⟨steps, clock⟩
  simp only [advance, advanceLog, hc]
  have moved := records_movePlayer s.fireTimers clock steps
  generalize { s.fireTimers with clock }.movePlayer steps = walked at moved ⊢
  have animated := (records_touchNearby walked).trans (records_stepEffects _ steps)
  generalize walked.touchNearby.stepEffects steps = stepped at animated ⊢
  have counted := records_count stepped
    (stepped.camera.follow stepped.world.player (Scalar.narrow dt)) dt
  generalize ({ stepped with
    camera := stepped.camera.follow stepped.world.player (Scalar.narrow dt)
    world := stepped.world.advanceCountdown dt } : Session) = later at counted ⊢
  have worked := (counted.trans (records_tickTasks later)).trans (records_flush _)
  simpa only [List.append_assoc, List.nil_append] using
    ((fired.trans moved).trans animated).trans worked

/-! ### Quiet frames -/

theorem dispatch_of_matching {t : Session} {event : Event} {target : Option ObjectId}
    (none : t.dispatcher.program.matching event target = []) :
    (t.dispatch event target).2 = t ∧ t.dispatchLog event target = [] := by
  simp only [dispatch, dispatchLog, Dispatcher.dispatch, Dispatcher.dispatchLog, none]
  split <;> exact ⟨rfl, rfl⟩

theorem touchNearby_of_matching {t : Session}
    (none : ∀ id, t.dispatcher.program.matching (.collide "player") (some id) = []) :
    t.touchNearby = t ∧ t.touchNearbyLog = [] := by
  have still (ids : List ObjectId) :
      ids.foldl (fun t id => (t.dispatch (.collide "player") (some id)).2) t = t ∧
        touchAllLog ids t = [] := by
    induction ids with
    | nil => exact ⟨rfl, rfl⟩
    | cons id rest ih =>
      obtain ⟨same, silent⟩ := dispatch_of_matching (none id)
      rw [List.foldl_cons, touchAllLog, same, silent]
      exact ih
  exact still _

theorem advanceLog_of_quiet {t : Session} {dt : Float} {steps : Nat}
    (ticks : (t.clock.accumulate (Scalar.narrow dt)).1 = steps)
    (timers : t.dispatcher.timers = [])
    (deaf : ∀ id, t.dispatcher.program.matching (.collide "player") (some id) = [])
    (uncounted : t.world.countdown = none) : ∃ w rest,
      t.advanceLog dt = w.animationLog t.clock.step steps ++ Scheduler.tickLog t.dispatcher.program
        t.scheduler (Nat.repeat (·.stepEffects t.clock.step) steps w) ++ rest ∧
      t.world.Alike w ∧ w.running = t.world.running := by
  have fired : t.fireTimers = t := by
    obtain ⟨world, ⟨state, program, _⟩, scheduler, inbox, clock, camera, settings, snapshot⟩ := t
    cases timers
    simp only [fireTimers, Dispatcher.fireTimers, Dispatcher.fireAll, ite_self]
  have silent : t.dispatcher.fireLog t.scheduler t.world = [] := by
    simp only [Dispatcher.fireLog, timers, Dispatcher.fireAllLog, ite_self]
  obtain ⟨moved, made⟩ : ∃ moved, moved =
      ({ t with clock := (t.clock.accumulate (Scalar.narrow dt)).2 } : Session).movePlayer steps :=
    ⟨_, rfl⟩
  obtain ⟨touched, untold⟩ : moved.touchNearby = moved ∧ moved.touchNearbyLog = [] :=
    touchNearby_of_matching (by rw [made]; exact deaf)
  have counted : (moved.stepEffects steps).world.advanceCountdown dt =
      (moved.stepEffects steps).world := by
    have still (n : Nat) (w : World) :
        (Nat.repeat (·.stepEffects moved.clock.step) n w).countdown = w.countdown := by
      induction n with
      | zero => rfl
      | succ n ih => exact ih
    have none : (moved.stepEffects steps).world.countdown = none :=
      (still steps moved.world).trans (by rw [made]; exact uncounted)
    simp only [World.advanceCountdown, none]
  let worked : Session := { moved.stepEffects steps with
    camera := (moved.stepEffects steps).camera.follow (moved.stepEffects steps).world.player
      (Scalar.narrow dt) }
  refine ⟨moved.world, worked.tickTasks.flushLog, ?_, by rw [made]; exact ⟨rfl, rfl⟩,
    by rw [made]; rfl⟩
  simp only [advanceLog, fired, silent, ticks, ← made, touched, untold, counted, List.nil_append]
  subst made
  rfl

/-! ### Input -/

def handleLog (s : Session) : InputEvent → Log
  | .keyDown key =>
    if keyLabel key = stopKey then []
    else (s.modifyInput (·.press (keyLabel key))).dispatchLog (.key (keyLabel key)) none
  | .click object => s.dispatchLog .click (some object)
  | _ => []

theorem records_handle {event : InputEvent} (still : (s.handle event).isRunning = true) :
    s.Records (s.handleLog event) (s.handle event) := by
  cases event with
  | keyDown key =>
    simp only [handle, handleLog, press] at still ⊢
    split
    · rename_i stops
      rw [if_pos stops, isRunning_stop] at still
      contradiction
    · have pressed := records_dispatch (s.modifyInput (·.press (keyLabel key)))
        (.key (keyLabel key)) none
      exact pressed.prepend rfl ⟨rfl, rfl⟩
  | click object => exact s.records_dispatch _ _
  | keyUp key => exact .aside rfl ⟨rfl, rfl⟩
  | pointer delta => exact .aside rfl ⟨rfl, rfl⟩
  | target point => exact .aside rfl ⟨rfl, rfl⟩

def handleToStopLog (s : Session) : List InputEvent → Log
  | [] => []
  | event :: rest =>
    if (s.handle event).isRunning then s.handleLog event ++ (s.handle event).handleToStopLog rest
    else []

theorem records_handleToStop (s : Session) (events : List InputEvent) :
    s.Records (s.handleToStopLog events) (s.handleToStop events) := by
  induction events generalizing s with
  | nil => exact .nothing s
  | cons event rest ih =>
    rw [handleToStop, handleToStopLog]
    split
    · exact (records_handle ‹_›).trans (ih _)
    · exact .nothing s

def tickLog (s : Session) (dt : Float32) : Log :=
  (s.later dt).handleToStopLog s.inbox.toList ++
    if (s.tick dt).isRunning then
      ((s.later dt).handleToStop s.inbox.toList).advanceLog (frameTime dt)
    else []

theorem records_tickToStop (s : Session) (dt : Float32) :
    s.Records (s.tickLog dt) (s.tickToStop dt) := by
  have handled : s.Records ((s.later dt).handleToStopLog s.inbox.toList)
      ((s.later dt).handleToStop s.inbox.toList) :=
    (records_handleToStop (s.later dt) s.inbox.toList).prepend rfl ⟨rfl, rfl⟩
  refine handled.trans ?_
  unfold tickToStop
  dsimp only
  split
  · exact records_advance _ _
  · exact .nothing _

/-! ### Runs -/

def startLog (s : Session) (settings : Settings) : Log :=
  let opened := s.opened settings
  let started := (opened.dispatch .start none).2
  let levelled := (started.dispatch .levelStart none).2
  opened.dispatchLog .start none ++ started.dispatchLog .levelStart none ++ levelled.flushLog

theorem records_start (s : Session) (settings : Settings) :
    (s.opened settings).Records (s.startLog settings) (s.start settings) :=
  ((records_dispatch _ _ _).trans (records_dispatch _ _ _)).trans (records_flush _)

def actLog (s : Session) : Action → Log
  | .setScripts id canvas => [.edits (s.act (.setScripts id canvas)).world.scene s.world]
  | .edit change => [.edits (change s.world.scene) s.world]
  | .tick dt => s.tickLog dt
  | .dispatch event target => s.dispatchLog event target
  | .removeObject id => [.removes id s.world]
  | _ => []

def playLog (s : Session) : List Action → Log
  | [] => []
  | a :: rest => s.actLog a ++ if (s.act a).isRunning then (s.act a).playLog rest else []

/-- The run lasts up to the last of the actions, which may end it. -/
def OneRun : Session → List Action → Prop
  | _, [] => True
  | s, a :: rest =>
    s.isRunning = true ∧ (∀ settings, a ≠ .start settings) ∧ (s.act a).OneRun rest

theorem OneRun.take {s : Session} {earlier later : List Action}
    (lasts : s.OneRun (earlier ++ later)) : s.OneRun earlier := by
  induction earlier generalizing s with
  | nil => trivial
  | cons a rest ih =>
    obtain ⟨running, other, lasts⟩ := lasts
    exact ⟨running, other, ih lasts⟩

theorem OneRun.take_snoc {s : Session} {earlier later : List Action} {a : Action}
    (lasts : s.OneRun (earlier ++ a :: later)) : s.OneRun (earlier ++ [a]) := by
  rw [List.append_cons] at lasts
  exact lasts.take

/-- What an action does in a run, up to its end, and what the log has of it. -/
inductive Does (s : Session) : Action → Log → Session → Prop
  | frame (dt : Float32) : s.Does (.tick dt) (s.tickLog dt) (s.tickToStop dt)
  | scripts (id : ObjectId) (canvas : List Stack) (scene : Scene) :
    s.Does (.setScripts id canvas) [.edits scene s.world]
      { s with world := { s.world with scene } }
  | edits (change : Scene → Scene) :
    s.Does (.edit change) [.edits (change s.world.scene) s.world]
      { s with world := { s.world with scene := change s.world.scene } }
  | removes (id : ObjectId) :
    s.Does (.removeObject id) [.removes id s.world] (s.removeObject id)
  | dispatches (event : Event) (target : Option ObjectId) :
    s.Does (.dispatch event target) (s.dispatchLog event target) (s.dispatch event target).2
  | receives (event : InputEvent) : s.Does (.receive event) [] (s.receive event)
  | drains : s.Does .drainNotices [] s.drainNotices.2
  | resizes (width height : Float32) :
    s.Does (.resize width height) [] { s with camera := s.camera.resize width height }
  /-- Either the text cannot be read, or the run ends. -/
  | loads (text : String) : s.Does (.load text) [] s
  | stops : s.Does .stop [] s

theorem does_after {a : Action} (running : s.isRunning = true)
    (other : ∀ settings, a ≠ .start settings) : s.Does a (s.actLog a) (s.after a) := by
  -- Any scene may stand in the log of an edit, so the log is rewritten for those of scripts only.
  have happens := happens_after running other
  generalize s.after a = s' at happens ⊢
  cases happens with
  | frame dt => exact .frame dt
  | scripts id canvas edited =>
    obtain ⟨scene, changed, rfl⟩ := setScripts_eq_ok edited
    simp only [actLog, act, edited]
    exact .scripts id canvas scene
  | refuses id canvas refused =>
    simp only [actLog, act, refused]
    exact .scripts id canvas s.world.scene
  | edits change => exact .edits change
  | removes id => exact .removes id
  | dispatches event target => exact .dispatches event target
  | receives event => exact .receives event
  | drains => exact .drains
  | resizes width height => exact .resizes width height
  | loads text => exact .loads text
  | stops => exact .stops

theorem Does.records {a : Action} (did : s.Does a log s') : s.Records log s' := by
  cases did with
  | frame dt => exact s.records_tickToStop dt
  | scripts id canvas scene => exact .single (.edit scene s.scheduler s.world)
  | edits change => exact .single (.edit (change s.world.scene) s.scheduler s.world)
  | removes id =>
    have removed : Episode s.moment [.removes id s.world]
        (s.scheduler, s.world.removeObject id) :=
      .remove id s.scheduler s.world
    exact .cons removed (.single (.drop List.filter_sublist _ _))
  | dispatches event target => exact s.records_dispatch event target
  | receives | drains | resizes => exact .aside rfl ⟨rfl, rfl⟩
  | loads | stops => exact .nothing s

theorem forall_afterAll {R : Session → Session → Prop} (refl : ∀ s, R s s)
    (trans : ∀ {s s' s''}, R s s' → R s' s'' → R s s'')
    (does : ∀ {s a log s'}, s.Does a log s' → R s s') {actions : List Action}
    (lasts : s.OneRun actions) : R s (s.afterAll actions) := by
  induction actions generalizing s with
  | nil => exact refl s
  | cons a rest ih =>
    obtain ⟨running, other, later⟩ := lasts
    have first := does (does_after running other)
    rw [afterAll]
    split
    · rename_i still
      rw [after_of_running still] at first
      exact trans first (ih later)
    · exact first

theorem records_afterAll {actions : List Action} (lasts : s.OneRun actions) :
    s.Records (s.playLog actions) (s.afterAll actions) := by
  induction actions generalizing s with
  | nil => exact .nothing s
  | cons a rest ih =>
    obtain ⟨running, other, later⟩ := lasts
    have first := (does_after running other).records
    rw [playLog, afterAll]
    split
    · rename_i still
      rw [after_of_running still] at first
      exact first.trans (ih later)
    · rw [List.append_nil]
      exact first

end Session
end BlockStage
