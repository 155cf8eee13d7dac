import BlockStage.Proofs.Log.Traces
import BlockStage.Proofs.Session.Recording

/-! What a run keeps, it keeps at every happening: a relation that the work of a run keeps holds
between the world in which the work begins, and that of each entry of its log. -/

namespace BlockStage

/-- From the first world on, the relation holds up to each happening and up to the last world. -/
structure Passes (R : World → World → Prop) (w : World) (log : Log) (w' : World) : Prop where
  worked : R w w'
  along : ∀ x ∈ log, R w x.world

namespace Kept

variable {R : World → World → Prop} (kept : Kept R)

include kept

theorem passes_refl (w : World) : Passes R w [] w where
  worked := kept.refl w
  along _ hx := absurd hx List.not_mem_nil

theorem passes_trans {w w' w'' : World} {log log' : Log} (first : Passes R w log w')
    (second : Passes R w' log' w'') : Passes R w (log ++ log') w'' where
  worked := kept.trans first.worked second.worked
  along x hx := by
    rcases List.mem_append.1 hx with earlier | later
    · exact first.along x earlier
    · exact kept.trans first.worked (second.along x later)

theorem passes_prepend {w w' w'' : World} {log : Log} (first : R w w')
    (h : Passes R w' log w'') : Passes R w log w'' where
  worked := kept.trans first h.worked
  along x hx := kept.trans first (h.along x hx)

/-! ### Starts and visits -/

variable (program : Program) (owner : ObjectId)

theorem of_mem_deeds {frames : List Frame} {w : World} {d : Deed}
    (h : d ∈ Task.deeds program owner frames w) : R w d.world := by
  have now {frames : List Frame} {w : World} (hd : d ∈ Task.stepDeeds owner frames w) :
      R w d.world := by
    rw [(Task.mem_stepDeeds hd).2.1]
    exact kept.refl w
  fun_induction Task.deeds program owner frames w with
  | case1 frames w frames' w' move ih =>
    have moved := kept.step program owner frames w
    rw [move] at moved
    rcases List.mem_append.1 h with here | later
    · exact now here
    · exact kept.trans moved (ih later)
  | case2 frames w frames' frame w' move ih =>
    have moved := kept.step program owner frames w
    rw [move] at moved
    rcases List.mem_append.1 h with here | later
    · exact now here
    · exact kept.trans moved (ih later)
  | case3 frames w => exact now h

theorem passes_startNext (frame : Frame) (waiting : Queue Frame) (s : Scheduler) (w : World) :
    Passes R w (s.nextLog program owner frame w)
      (Scheduler.startNext program owner frame waiting s w).2.2 where
  worked := kept.startNext program owner frame waiting s w
  along x hx := by
    obtain ⟨d, hd, rfl⟩ := List.mem_map.1 hx
    unfold Scheduler.nextDeeds at hd
    split at hd
    · contradiction
    · rcases List.mem_cons.1 hd with rfl | done
      · exact kept.refl w
      · exact kept.of_mem_deeds program owner done

theorem passes_startAll (supply : Nat) (waiting : Queue Frame) (s : Scheduler) (w : World) :
    Passes R w (Scheduler.startAllLog program owner supply waiting s w)
      (Scheduler.startAll program owner supply waiting s w).2 := by
  induction supply generalizing waiting s w with
  | zero => exact kept.passes_refl w
  | succ supply ih =>
    simp only [Scheduler.startAllLog, Scheduler.startAll]
    cases waiting.pop? with
    | none => exact kept.passes_refl w
    | some next =>
      exact kept.passes_trans (kept.passes_startNext program owner next.1 next.2 s w) (ih _ _ _)

theorem passes_start (frame : Frame) (s : Scheduler) (w : World) :
    Passes R w (Scheduler.startLog program owner frame s w)
      (Scheduler.start program owner frame s w).2 :=
  kept.passes_startAll program owner Scheduler.mostStarts _ s w

theorem passes_startEach (starts : List (ObjectId × Frame)) (s : Scheduler) (w : World) :
    Passes R w (Scheduler.startEachLog program starts s w)
      (Scheduler.startEach program starts s w).2 := by
  induction starts generalizing s w with
  | nil => exact kept.passes_refl w
  | cons p rest ih => exact kept.passes_trans (kept.passes_start program p.1 p.2 s w) (ih _ _)

theorem passes_launch (body : List Instruction) (s : Scheduler) (w : World) :
    Passes R w (Scheduler.launchLog program owner body s w)
      (Scheduler.launch program owner body s w).2 := by
  unfold Scheduler.launchLog Scheduler.launch
  split
  · exact kept.passes_start program owner _ s w
  · exact kept.passes_refl w

theorem of_mem_visitDeeds {t : Task} {w : World} {d : Deed}
    (h : d ∈ Scheduler.visitDeeds program t w) : R w d.world := by
  unfold Scheduler.visitDeeds at h
  split at h
  · rcases List.mem_append.1 h with polled | driven
    · unfold Scheduler.pollDeeds at polled
      split at polled
      · split at polled
        · contradiction
        · rw [List.mem_singleton.1 polled]
          exact kept.refl w
      · contradiction
    · split at driven
      · rename_i w' woken
        have waited := kept.wakes t w
        rw [woken] at waited
        exact kept.trans waited (kept.of_mem_deeds program t.owner driven)
      · contradiction
  · contradiction

theorem passes_visit (t : Task) (w : World) :
    Passes R w (Scheduler.visitLog program t w) (Scheduler.visit program t w).2.2 where
  worked := kept.visit program t w
  along x hx := by
    obtain ⟨d, hd, rfl⟩ := List.mem_map.1 hx
    exact kept.of_mem_visitDeeds program hd

theorem passes_visitAll (tasks : List Task) (w : World) :
    Passes R w (Scheduler.visitAllLog program tasks w)
      (Scheduler.visitAll program tasks w).2.2 := by
  induction tasks generalizing w with
  | nil => exact kept.passes_refl w
  | cons t rest ih => exact kept.passes_trans (kept.passes_visit program t w) (ih _)

theorem passes_tick (s : Scheduler) (w : World) :
    Passes R w (Scheduler.tickLog program s w) (Scheduler.tick program s w).2 := by
  by_cases running : w.running = true
  · rw [Scheduler.tick_eq program s running, Scheduler.tickLog, if_pos running]
    exact kept.passes_trans (kept.passes_visitAll program s.tasks w)
      (kept.passes_startEach program _ _ _)
  · rw [Scheduler.tick, Scheduler.tickLog, if_neg running, if_neg running]
    exact kept.passes_refl w

/-! ### Dispatches and timers -/

variable (d : Dispatcher)

theorem passes_launchAll (entries : List Program.Entry) (s : Scheduler) (w : World) :
    Passes R w (d.launchAllLog entries s w) (d.launchAll entries s w).2.2 := by
  induction entries generalizing s w with
  | nil => exact kept.passes_refl w
  | cons entry rest ih =>
    simp only [Dispatcher.launchAllLog, Dispatcher.launchAll]
    split
    · exact kept.passes_trans (kept.passes_launch d.program entry.owner _ s w) (ih _ _)
    · exact ih s w

theorem passes_dispatch (event : Event) (target : Option ObjectId) (s : Scheduler) (w : World) :
    Passes R w (d.dispatchLog event target s w) (d.dispatch event target s w).2.2 := by
  unfold Dispatcher.dispatchLog Dispatcher.dispatch
  split
  · exact kept.passes_launchAll d _ s w
  · exact kept.passes_refl w

theorem passes_fireAll (timers : List Timer) (s : Scheduler) (w : World) :
    Passes R w (d.fireAllLog timers s w) (d.fireAll timers s w).2.2 := by
  induction timers generalizing s w with
  | nil => exact kept.passes_refl w
  | cons t rest ih =>
    simp only [Dispatcher.fireAllLog, Dispatcher.fireAll]
    split
    · exact kept.passes_trans (kept.passes_launch d.program t.entry.owner _ s w) (ih _ _)
    · exact ih s w

theorem passes_fireTimers (s : Scheduler) (w : World) :
    Passes R w (d.fireLog s w) (d.fireTimers s w).2.2 := by
  unfold Dispatcher.fireLog Dispatcher.fireTimers
  split
  · exact kept.passes_fireAll d d.timers s w
  · exact kept.passes_refl w

end Kept

/-! ### Frames -/

namespace KeptInWork

variable {R : World → World → Prop} (kept : KeptInWork R) (s : Session)

include kept

theorem passes_dispatch (event : Event) (target : Option ObjectId) :
    Passes R s.world (s.dispatchLog event target) (s.dispatch event target).2.world :=
  kept.toKept.passes_dispatch s.dispatcher event target s.scheduler s.world

theorem passes_flushUpTo (budget : Nat) :
    Passes R s.world (s.flushUpToLog budget) (s.flushUpTo budget).world := by
  induction budget generalizing s with
  | zero => exact kept.passes_refl s.world
  | succ budget ih =>
    simp only [Session.flushUpTo, Session.flushUpToLog]
    cases popped : s.world.popRaised? with
    | none => exact kept.passes_refl s.world
    | some next =>
      obtain ⟨queue, -, rfl⟩ := Option.map_eq_some_iff.1 popped
      have taken : R s.world { s.world with raised := queue.2 } :=
        kept.aside s.world s.world.input.look s.world.player _ s.world.countdown
      have delivered := kept.passes_dispatch { s with world.raised := queue.2 } queue.1.event
        queue.1.target
      exact kept.passes_prepend taken (kept.passes_trans delivered (ih _))

theorem passes_touchNearby : Passes R s.world s.touchNearbyLog s.touchNearby.world := by
  have touched (ids : List ObjectId) (s : Session) :
      Passes R s.world (Session.touchAllLog ids s)
        (ids.foldl (fun s id => (s.dispatch (.collide "player") (some id)).2) s).world := by
    induction ids generalizing s with
    | nil => exact kept.passes_refl s.world
    | cons id rest ih => exact kept.passes_trans (kept.passes_dispatch s _ _) (ih _)
  exact touched _ s

theorem passes_animation (dt : Float32) (steps : Nat) (w : World) :
    Passes R w (w.animationLog dt steps) (Nat.repeat (·.stepEffects dt) steps w) := by
  induction steps with
  | zero => exact kept.passes_refl w
  | succ steps ih =>
    refine kept.passes_trans ih ⟨kept.effects _ dt, fun x hx => ?_⟩
    rw [List.mem_singleton.1 hx]
    exact kept.refl _

theorem passes_fireTimers :
    Passes R s.world (s.dispatcher.fireLog s.scheduler s.world) s.fireTimers.world :=
  kept.toKept.passes_fireTimers s.dispatcher s.scheduler s.world

theorem passes_rest (dt : Float) (steps : Nat) :
    let stepped := s.touchNearby.stepEffects steps
    let counted : Session := { stepped with
      camera := stepped.camera.follow stepped.world.player (Scalar.narrow dt)
      world := stepped.world.advanceCountdown dt }
    Passes R s.world (s.touchNearbyLog ++
        s.touchNearby.world.animationLog s.touchNearby.clock.step steps ++ counted.tickTasksLog ++
        counted.tickTasks.flushLog) counted.tickTasks.flush.world := by
  intro stepped counted
  have counting : R stepped.world counted.world := kept.advanceCountdown stepped.world dt
  have touched := kept.passes_trans (kept.passes_touchNearby s)
    (kept.passes_animation s.touchNearby.clock.step steps s.touchNearby.world)
  have ticked : Passes R stepped.world counted.tickTasksLog counted.tickTasks.world :=
    kept.passes_prepend counting
      (kept.toKept.passes_tick counted.dispatcher.program counted.scheduler counted.world)
  exact kept.passes_trans (kept.passes_trans touched ticked) (kept.passes_flushUpTo _ _)

theorem passes_advance (dt : Float) : Passes R s.world (s.advanceLog dt) (s.advance dt).world := by
  rcases hc : s.fireTimers.clock.accumulate (Scalar.narrow dt) with ⟨steps, clock⟩
  have moved : R s.fireTimers.world ({ s.fireTimers with clock }.movePlayer steps).world :=
    kept.movePlayer { s.fireTimers with clock } steps
  have worked := kept.passes_trans (kept.passes_fireTimers s)
    (kept.passes_prepend moved (kept.passes_rest _ dt steps))
  simpa only [Session.advanceLog, Session.advance, hc, List.append_assoc] using worked

theorem passes_start (settings : Settings) :
    Passes R (s.opened settings).world (s.startLog settings) (s.start settings).world :=
  kept.passes_trans (kept.passes_trans (kept.passes_dispatch _ _ _) (kept.passes_dispatch _ _ _))
    (kept.passes_flushUpTo _ _)

end KeptInWork

namespace KeptInPlay

variable {R : World → World → Prop} (kept : KeptInPlay R) (s : Session)

include kept

theorem passes_handle (event : InputEvent) (running : (s.handle event).isRunning = true) :
    Passes R s.world (s.handleLog event) (s.handle event).world := by
  cases event with
  | keyDown key =>
    have pressed : R s.world (s.modifyInput (·.press (keyLabel key))).world :=
      kept.input s.world _
    simp only [Session.handle, Session.handleLog, Session.press] at running ⊢
    split at running
    · simp at running
    · rename_i other
      rw [if_neg other, if_neg other]
      exact kept.passes_prepend pressed (kept.toKeptInWork.passes_dispatch _ _ _)
  | click object => exact kept.toKeptInWork.passes_dispatch s _ _
  | keyUp key => exact ⟨kept.handle s (.keyUp key) running, (kept.passes_refl s.world).along⟩
  | pointer delta =>
    exact ⟨kept.handle s (.pointer delta) running, (kept.passes_refl s.world).along⟩
  | target point =>
    exact ⟨kept.handle s (.target point) running, (kept.passes_refl s.world).along⟩

theorem passes_handleToStop (events : List InputEvent) :
    Passes R s.world (s.handleToStopLog events) (s.handleToStop events).world := by
  induction events generalizing s with
  | nil => exact kept.passes_refl s.world
  | cons event rest ih =>
    rw [Session.handleToStop, Session.handleToStopLog]
    split
    · exact kept.passes_trans (kept.passes_handle s event ‹_›) (ih _)
    · exact kept.passes_refl s.world

theorem passes_tickToStop_later (dt : Float32) :
    Passes R (s.later dt).world (s.tickLog dt) (s.tickToStop dt).world := by
  refine kept.passes_trans (kept.passes_handleToStop (s.later dt) s.inbox.toList) ?_
  unfold Session.tickToStop
  dsimp only
  split
  · exact kept.toKeptInWork.passes_advance _ _
  · exact kept.passes_refl _

end KeptInPlay

theorem KeptInFrames.passes_tickToStop {R : World → World → Prop} (kept : KeptInFrames R)
    (s : Session) (dt : Float32) : Passes R s.world (s.tickLog dt) (s.tickToStop dt).world :=
  kept.passes_prepend (kept.clock s.world (s.world.now + Session.frameTime dt))
    (kept.toKeptInPlay.passes_tickToStop_later s dt)

structure KeptBetween (R : World → World → Prop) : Prop extends KeptInWork R where
  scene : ∀ (w : World) (scene : Scene), R w { w with scene }

namespace KeptBetween

variable {R : World → World → Prop} (kept : KeptBetween R) {s : Session}

include kept

theorem removeObject (w : World) (id : ObjectId) : R w (w.removeObject id) :=
  kept.execute ⟨.destroy, [], .command, .destroy, [], []⟩ id {} w

theorem outcome (x : Happening) : R x.world x.outcome := by
  cases x with
  | does task d =>
    simp only [Happening.world, Happening.outcome]
    split
    · exact kept.execute _ d.owner {} d.world
    · exact kept.refl d.world
  | animates dt world => exact kept.effects world dt
  | removes id world => exact kept.removeObject world id
  | edits scene world => exact kept.scene world scene

theorem passes_single {x : Happening} {w : World} (worked : R x.world w) :
    Passes R x.world [x] w := by
  refine ⟨worked, fun y hy => ?_⟩
  rw [List.mem_singleton.1 hy]
  exact kept.refl x.world

theorem passes_between {a : Session.Action} {log : Log} {s' : Session} (did : s.Does a log s')
    (no_frame : ∀ dt, a ≠ .tick dt) (undrained : a ≠ .drainNotices) :
    Passes R s.world log s'.world := by
  cases did with
  | frame dt => exact absurd rfl (no_frame dt)
  | scripts id canvas scene =>
    exact kept.passes_single (x := .edits scene s.world) (kept.scene s.world scene)
  | edits change => exact kept.passes_single (x := .edits _ s.world) (kept.scene s.world _)
  | removes id => exact kept.passes_single (x := .removes id s.world) (kept.removeObject s.world id)
  | dispatches event target => exact kept.passes_dispatch s event target
  | drains => contradiction
  | receives | resizes | loads | stops => exact kept.passes_refl s.world

end KeptBetween

/-- Whatever happens during a run keeps the relation, but for the draining of notices. -/
structure KeptInRun (R : World → World → Prop) : Prop extends KeptInFrames R, KeptBetween R

theorem KeptInRun.passes {R : World → World → Prop} (kept : KeptInRun R) {s s' : Session}
    {a : Session.Action} {log : Log} (did : s.Does a log s') (undrained : a ≠ .drainNotices) :
    Passes R s.world log s'.world := by
  by_cases frame : ∃ dt, a = .tick dt
  · obtain ⟨dt, rfl⟩ := frame
    cases did
    exact kept.passes_tickToStop s dt
  · exact kept.toKeptBetween.passes_between did (fun dt h => frame ⟨dt, h⟩) undrained

end BlockStage
