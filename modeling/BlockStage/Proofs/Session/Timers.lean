import BlockStage.Proofs.Session.Clock

/-! Timers. When a timer is due depends on its period and on the frames so far, and on nothing
else: neither on what scripts or the user do nor on the other timers, be their objects there or
gone. -/

namespace BlockStage

def Session.clockAfter (now : Float) (frames : List Float32) : Float :=
  frames.foldl (fun now dt => now + frameTime dt) now

namespace Timer

def after (t : Timer) (now : Float) : Timer := if t.isDue now then t.rearm now else t

@[simp] theorem after_entry (t : Timer) (now : Float) : (t.after now).entry = t.entry := by
  unfold after
  split <;> rfl

@[simp] theorem after_period (t : Timer) (now : Float) : (t.after now).period = t.period := by
  unfold after
  split <;> rfl

def afterFrames (t : Timer) (now : Float) : List Float32 → Timer
  | [] => t
  | dt :: rest =>
    (t.after (now + Session.frameTime dt)).afterFrames (now + Session.frameTime dt) rest

theorem afterFrames_append (t : Timer) (now : Float) (frames later : List Float32) :
    t.afterFrames now (frames ++ later) =
      (t.afterFrames now frames).afterFrames (Session.clockAfter now frames) later := by
  induction frames generalizing t now with
  | nil => rfl
  | cons dt rest ih => exact ih _ _

theorem entry_afterFrames (t : Timer) (now : Float) (frames : List Float32) :
    (t.afterFrames now frames).entry = t.entry := by
  induction frames generalizing t now with
  | nil => rfl
  | cons dt rest ih => rw [afterFrames, ih, after_entry]

/-- Timers that are due at the same times stay so. -/
structure Alike (t t' : Timer) : Prop where
  period : t'.period = t.period
  nextFire : t'.nextFire = t.nextFire

namespace Alike

variable {t t' : Timer}

theorem isDue (alike : Alike t t') (now : Float) : t'.isDue now = t.isDue now := by
  rw [Timer.isDue, alike.nextFire, Timer.isDue]

theorem after (alike : Alike t t') (now : Float) : Alike (t.after now) (t'.after now) := by
  refine ⟨by simp [alike.period], ?_⟩
  simp only [Timer.after, alike.isDue]
  split
  · simp only [rearm, alike.period, alike.nextFire]
  · exact alike.nextFire

theorem afterFrames (alike : Alike t t') (now : Float) (frames : List Float32) :
    Alike (t.afterFrames now frames) (t'.afterFrames now frames) := by
  induction frames generalizing t t' now with
  | nil => exact alike
  | cons dt rest ih => exact ih (alike.after _) _

end Alike

end Timer

def Program.timers (p : Program) : List Timer := p.entries.filterMap (Timer.ofEntry? 0)

namespace Dispatcher

variable (d : Dispatcher) (s : Scheduler) (w : World)

/-! ### One call -/

/-- The tasks and the world when the first `k` timers have had their turns. -/
def turn (k : Nat) : Scheduler × World := (d.fireAll (d.timers.take k) s w).2

/-- The timer launches its script: it is due, and its object is there when its turn comes. -/
def Fires (k : Nat) : Prop :=
  ∃ t, d.timers[k]? = some t ∧ t.isDue w.now = true ∧
    (d.turn s w k).2.scene.contains t.entry.owner = true

theorem now_launch (entry : Program.Entry) : (d.launch entry s w).2.now = w.now :=
  keptInPlay_time.launch d.program entry.owner entry.script.body s w

theorem launch_of_absent {entry : Program.Entry} (absent : ¬ w.scene.contains entry.owner = true) :
    d.launch entry s w = (s, w) :=
  if_neg fun there => absent (Bool.and_eq_true_iff.1 there).2

/-- What becomes of the timers is a matter of the clock. -/
theorem timers_fireAll (timers : List Timer) :
    (d.fireAll timers s w).1 = timers.map (·.after w.now) := by
  induction timers generalizing s w with
  | nil => rfl
  | cons t rest ih =>
    rw [fireAll, List.map_cons, Timer.after]
    split
    · have fired := keptInPlay_time.fireAll d rest (d.launch t.entry s w).1 (d.launch t.entry s w).2
      simp only [ih, now_launch, fired.trans (d.now_launch s w t.entry)]
    · simp only [ih]

theorem fireAll_append (timers later : List Timer) :
    (d.fireAll (timers ++ later) s w).2 =
      (d.fireAll later (d.fireAll timers s w).2.1 (d.fireAll timers s w).2.2).2 := by
  induction timers generalizing s w with
  | nil => rfl
  | cons t rest ih =>
    simp only [List.cons_append, fireAll]
    split <;> exact ih _ _

theorem fireTimers_eq (running : d.state = .running) :
    d.fireTimers s w =
      ({ d with timers := d.timers.map (·.after w.now) }, d.turn s w d.timers.length) := by
  rw [fireTimers, if_pos running, turn, List.take_length, ← timers_fireAll d s w d.timers]

variable {d s w} {k : Nat}

theorem turn_succ {t : Timer} (listed : d.timers[k]? = some t) :
    d.turn s w (k + 1) =
      if t.isDue w.now then d.launch t.entry (d.turn s w k).1 (d.turn s w k).2
      else d.turn s w k := by
  have now : (d.turn s w k).2.now = w.now := keptInPlay_time.fireAll d _ s w
  have one : d.turn s w (k + 1) = (d.fireAll [t] (d.turn s w k).1 (d.turn s w k).2).2 := by
    rw [turn, List.take_add_one, listed, fireAll_append]
    rfl
  rw [one]
  simp only [fireAll, now]
  split <;> rfl

theorem turn_of_fires {t : Timer} (listed : d.timers[k]? = some t) (fires : d.Fires s w k) :
    d.turn s w (k + 1) = d.launch t.entry (d.turn s w k).1 (d.turn s w k).2 := by
  obtain ⟨t', listed', due, -⟩ := fires
  obtain rfl := Option.some.inj (listed.symm.trans listed')
  rw [turn_succ listed, if_pos due]

theorem turn_of_not_fires (silent : ¬ d.Fires s w k) : d.turn s w (k + 1) = d.turn s w k := by
  cases listed : d.timers[k]? with
  | none => simp [turn, List.take_add_one, listed]
  | some t =>
    rw [turn_succ listed]
    split
    · rename_i due
      exact launch_of_absent d _ _ fun there => silent ⟨t, listed, due, there⟩
    · rfl

end Dispatcher

namespace Session

variable {s : Session}

/-! ### One frame -/

theorem exists_flushUpTo (budget : Nat) (s : Session) :
    ∃ scheduler world, s.flushUpTo budget = { s with scheduler, world } := by
  induction budget generalizing s with
  | zero => exact ⟨s.scheduler, s.world, rfl⟩
  | succ budget ih =>
    rw [flushUpTo]
    split
    · exact ⟨s.scheduler, s.world, rfl⟩
    · obtain ⟨scheduler, world, flushed⟩ := ih _
      exact ⟨scheduler, world, flushed⟩

theorem dispatcher_flushUpTo (budget : Nat) (s : Session) :
    (s.flushUpTo budget).dispatcher = s.dispatcher := by
  obtain ⟨_, _, flushed⟩ := exists_flushUpTo budget s
  rw [flushed]

theorem dispatcher_touchNearby (s : Session) : s.touchNearby.dispatcher = s.dispatcher := by
  have touched (ids : List ObjectId) (s : Session) :
      (ids.foldl (fun s id => (s.dispatch (.collide "player") (some id)).2) s).dispatcher =
        s.dispatcher := by
    induction ids generalizing s with
    | nil => rfl
    | cons id ids ih => exact ih _
  exact touched _ s

theorem dispatcher_advance (s : Session) (dt : Float) :
    (s.advance dt).dispatcher = s.fireTimers.dispatcher :=
  (dispatcher_flushUpTo _ _).trans (dispatcher_touchNearby _)

theorem dispatcher_handle {event : InputEvent} (still : (s.handle event).isRunning = true) :
    (s.handle event).dispatcher = s.dispatcher := by
  cases event with
  | keyDown key =>
    simp only [handle, press] at still ⊢
    split at still
    · simp at still
    · rename_i other
      rw [if_neg other]
      rfl
  | _ => rfl

theorem dispatcher_handleToStop (events : List InputEvent) (s : Session) :
    (s.handleToStop events).dispatcher = s.dispatcher := by
  induction events generalizing s with
  | nil => rfl
  | cons event rest ih =>
    rw [handleToStop]
    split
    · rename_i still
      rw [ih, dispatcher_handle still]
    · rfl

def atTimers (s : Session) (dt : Float32) : Session :=
  { s with world := { s.world with now := s.world.now + frameTime dt } }.processInput

theorem isRunning_atTimers {dt : Float32} (running : s.isRunning = true)
    (goesOn : (s.tick dt).isRunning = true) : (s.atTimers dt).isRunning = true := by
  by_contra ended
  have ticked : s.tick dt = s.atTimers dt := by
    rw [tick, if_pos running]
    exact if_neg ended
  exact ended (ticked ▸ goesOn)

theorem tick_eq_advance {dt : Float32} (running : s.isRunning = true)
    (goesOn : (s.tick dt).isRunning = true) :
    s.tick dt = (s.atTimers dt).advance (frameTime dt) := by
  rw [tick, if_pos running]
  exact if_pos (isRunning_atTimers running goesOn)

theorem atTimers_eq {dt : Float32} (running : s.isRunning = true)
    (goesOn : (s.tick dt).isRunning = true) :
    s.atTimers dt = (s.later dt).handleToStop s.inbox.toList := by
  have before : (s.later dt).isRunning = true := running
  exact (handleAll_eq before s.inbox.toList).trans (if_pos (isRunning_atTimers running goesOn))

theorem dispatcher_atTimers {dt : Float32} (running : s.isRunning = true)
    (goesOn : (s.tick dt).isRunning = true) : (s.atTimers dt).dispatcher = s.dispatcher := by
  rw [atTimers_eq running goesOn]
  exact dispatcher_handleToStop _ _

theorem now_atTimers {dt : Float32} (running : s.isRunning = true)
    (goesOn : (s.tick dt).isRunning = true) :
    (s.atTimers dt).world.now = s.world.now + frameTime dt := by
  rw [atTimers_eq running goesOn]
  exact keptInPlay_time.handleToStop (s.later dt) _

theorem timers_tick {dt : Float32} (running : s.isRunning = true)
    (goesOn : (s.tick dt).isRunning = true) :
    (s.tick dt).dispatcher.timers =
      s.dispatcher.timers.map (·.after (s.world.now + frameTime dt)) := by
  have state : (s.atTimers dt).dispatcher.state = .running := by
    rw [dispatcher_atTimers running goesOn]
    simpa [isRunning] using (Bool.and_eq_true_iff.1 running).2
  rw [tick_eq_advance running goesOn, dispatcher_advance, fireTimers,
    Dispatcher.fireTimers_eq _ _ _ state, now_atTimers running goesOn,
    dispatcher_atTimers running goesOn]

/-! ### Runs -/

def Action.length? : Action → Option Float32
  | .tick dt => some dt
  | _ => none

def frameLengths (actions : List Action) : List Float32 := actions.filterMap Action.length?

theorem frameLengths_cons (a : Action) (rest : List Action) :
    frameLengths (a :: rest) = a.length?.toList ++ frameLengths rest := by
  rw [frameLengths, List.filterMap_cons]
  cases a.length? <;> rfl

theorem timed_eq_clockAfter (a : Action) (now : Float) :
    a.timed now = clockAfter now a.length?.toList := by
  cases a <;> rfl

def GoesOn (s : Session) (actions : List Action) : Prop :=
  s.OneRun actions ∧ (s.actAll actions).isRunning = true

theorem GoesOn.isRunning {actions : List Action} (h : s.GoesOn actions) : s.isRunning = true := by
  cases actions with
  | nil => exact h.2
  | cons a rest => exact h.1.1

theorem GoesOn.split {earlier later : List Action} (h : s.GoesOn (earlier ++ later)) :
    s.GoesOn earlier ∧ (s.actAll earlier).GoesOn later := by
  induction earlier generalizing s with
  | nil => exact ⟨⟨trivial, h.isRunning⟩, h⟩
  | cons a rest ih =>
    obtain ⟨⟨running, other, later⟩, goesOn⟩ := h
    obtain ⟨first, second⟩ := ih ⟨later, goesOn⟩
    exact ⟨⟨⟨running, other, first.1⟩, first.2⟩, second⟩

theorem timers_act {a : Action} (running : s.isRunning = true)
    (other : ∀ settings, a ≠ .start settings) (goesOn : (s.act a).isRunning = true) :
    (s.act a).dispatcher.timers =
        s.dispatcher.timers.map (·.afterFrames s.world.now a.length?.toList) ∧
      (s.act a).world.now = clockAfter s.world.now a.length?.toList := by
  have did := does_after running other
  rw [after_of_running goesOn] at did
  refine ⟨?_, did.now.trans (timed_eq_clockAfter a _)⟩
  cases a with
  | tick dt => exact timers_tick running goesOn
  | _ =>
    refine Eq.trans ?_ (List.map_id _).symm
    generalize s.act _ = s' at did
    cases did <;> rfl

theorem timers_actAll {actions : List Action} (h : s.GoesOn actions) :
    (s.actAll actions).dispatcher.timers =
        s.dispatcher.timers.map (·.afterFrames s.world.now (frameLengths actions)) ∧
      (s.actAll actions).world.now = clockAfter s.world.now (frameLengths actions) := by
  induction actions generalizing s with
  | nil => exact ⟨(List.map_id _).symm, rfl⟩
  | cons a rest ih =>
    obtain ⟨⟨running, other, later⟩, goesOn⟩ := h
    have rests : (s.act a).GoesOn rest := ⟨later, goesOn⟩
    obtain ⟨timers, now⟩ := timers_act running other rests.isRunning
    obtain ⟨timers', now'⟩ := ih rests
    rw [actAll, List.foldl_cons, ← actAll, timers', now', timers, now, frameLengths_cons,
      List.map_map]
    exact ⟨List.map_congr_left fun t _ => (t.afterFrames_append _ _ _).symm,
      List.foldl_append.symm⟩

theorem timers_start (s : Session) (settings : Settings) :
    (s.start settings).dispatcher.timers =
      (Program.ofScene .standard s.ready.world.scene).timers := by
  rw [start_eq, flush, dispatcher_flushUpTo]
  rfl

theorem isRunning_start (s : Session) (settings : Settings) :
    (s.start settings).isRunning = true := by
  rw [(s.continues_start settings).isRunning, isRunning, opened, World.showAllVars_eq]
  rfl

theorem goesOn_start (s : Session) (settings : Settings) (dt : Float32) :
    (s.start settings).GoesOn [.tick dt] := by
  obtain ⟨_, _, flushed⟩ := exists_flushUpTo _ _
  have idle : (s.start settings).inbox.toList = [] := by
    rw [start_eq, flush, flushed]
    rfl
  have running := s.isRunning_start settings
  exact ⟨⟨running, nofun, trivial⟩, isRunning_tick_of_idle running idle dt⟩

def FiresTimer (s : Session) (k : Nat) (dt : Float32) : Prop :=
  (s.atTimers dt).dispatcher.Fires (s.atTimers dt).scheduler (s.atTimers dt).world k

def worldAtTurn (s : Session) (k : Nat) (dt : Float32) : World :=
  ((s.atTimers dt).dispatcher.turn (s.atTimers dt).scheduler (s.atTimers dt).world k).2

theorem timer_atTimers {settings : Settings} {actions : List Action} {dt : Float32}
    (goesOn : (s.start settings).GoesOn (actions ++ [.tick dt])) {k : Nat} {t : Timer}
    (listed : (Program.ofScene .standard s.ready.world.scene).timers[k]? = some t) :
    (((s.start settings).actAll actions).atTimers dt).dispatcher.timers[k]? =
        some (t.afterFrames 0 (frameLengths actions)) ∧
      (((s.start settings).actAll actions).atTimers dt).world.now =
        clockAfter 0 (frameLengths actions) + frameTime dt := by
  obtain ⟨before, frame⟩ := goesOn.split
  obtain ⟨timers, now⟩ := timers_actAll before
  have ticks : (((s.start settings).actAll actions).tick dt).isRunning = true := frame.2
  rw [dispatcher_atTimers frame.isRunning ticks, now_atTimers frame.isRunning ticks, timers, now,
    timers_start, now_start, List.getElem?_map, listed]
  exact ⟨rfl, rfl⟩

theorem firesTimer_iff {settings : Settings} {actions : List Action} {dt : Float32}
    (goesOn : (s.start settings).GoesOn (actions ++ [.tick dt])) {k : Nat} {t : Timer}
    (listed : (Program.ofScene .standard s.ready.world.scene).timers[k]? = some t)
    (kept : t.entry.owner ∈
      (((s.start settings).actAll actions).worldAtTurn k dt).scene.ids) :
    ((s.start settings).actAll actions).FiresTimer k dt ↔
      (t.afterFrames 0 (frameLengths actions)).isDue
        (clockAfter 0 (frameLengths actions) + frameTime dt) = true := by
  obtain ⟨found, now⟩ := timer_atTimers goesOn listed
  rw [← now]
  constructor
  · rintro ⟨t', found', due, -⟩
    rwa [Option.some.inj (found.symm.trans found')]
  · intro due
    refine ⟨_, found, due, ?_⟩
    rw [Timer.entry_afterFrames]
    exact (Scene.contains_iff _ _).2 kept

theorem exists_timer {program : Program} {entry : Program.Entry} (listed : entry ∈ program.entries)
    {period : Float} (timed : entry.script.trigger = .timer period) :
    ∃ k : Nat, program.timers[k]? = some ⟨entry, period, 0 + period⟩ := by
  refine List.mem_iff_getElem?.1 (List.mem_filterMap.2 ⟨entry, listed, ?_⟩)
  rw [Timer.ofEntry?, timed]

theorem nextFire_of_mem_timers {program : Program} {t : Timer} (listed : t ∈ program.timers) :
    t.nextFire = 0 + t.period := by
  obtain ⟨entry, -, made⟩ := List.mem_filterMap.1 listed
  unfold Timer.ofEntry? at made
  split at made
  · obtain rfl := Option.some.inj made
    rfl
  · contradiction

/-- Timers of the same period fire in the same frames of two runs with frames of the same lengths,
as long as their objects are there, whatever else the runs have and whatever the user does. In each
call every timer has a single turn, in which it launches its script at most; when it is due again
does not depend on the others or their objects. -/
theorem timers_undisturbed {s s' : Session} {settings settings' : Settings}
    {actions actions' : List Action} {dt : Float32}
    (goesOn : (s.start settings).GoesOn (actions ++ [.tick dt]))
    (goesOn' : (s'.start settings').GoesOn (actions' ++ [.tick dt]))
    (frames : frameLengths actions' = frameLengths actions) {k k' : Nat} {t t' : Timer}
    (listed : (Program.ofScene .standard s.ready.world.scene).timers[k]? = some t)
    (listed' : (Program.ofScene .standard s'.ready.world.scene).timers[k']? = some t')
    (period : t'.period = t.period) :
    let before := (s.start settings).actAll actions
    let before' := (s'.start settings').actAll actions'
    (t.entry.owner ∈ (before.worldAtTurn k dt).scene.ids →
      t'.entry.owner ∈ (before'.worldAtTurn k' dt).scene.ids →
        (before.FiresTimer k dt ↔ before'.FiresTimer k' dt)) ∧
    (∀ (program : Program) (entry : Program.Entry) (period : Float), entry ∈ program.entries →
      entry.script.trigger = .timer period →
        ∃ k : Nat, program.timers[k]? = some ⟨entry, period, 0 + period⟩) ∧
    ∀ (d : Dispatcher) (tasks : Scheduler) (w : World), d.state = .running →
      (d.fireTimers tasks w).1.timers = d.timers.map (·.after w.now) ∧
      d.turn tasks w 0 = (tasks, w) ∧
      (∀ (k : Nat) (t : Timer), d.timers[k]? = some t →
        (d.Fires tasks w k →
          d.turn tasks w (k + 1) = d.launch t.entry (d.turn tasks w k).1 (d.turn tasks w k).2) ∧
        (¬ d.Fires tasks w k → d.turn tasks w (k + 1) = d.turn tasks w k)) ∧
      (d.fireTimers tasks w).2 = d.turn tasks w d.timers.length := by
  intro before before'
  refine ⟨fun kept kept' => ?_, fun program entry period listed timed => exists_timer listed timed,
    fun d tasks w running => ?_⟩
  · have alike : Timer.Alike t t' := by
      refine ⟨period, ?_⟩
      rw [nextFire_of_mem_timers (List.mem_of_getElem? listed'),
        nextFire_of_mem_timers (List.mem_of_getElem? listed), period]
    rw [firesTimer_iff goesOn listed kept, firesTimer_iff goesOn' listed' kept', frames,
      (alike.afterFrames 0 (frameLengths actions)).isDue]
  · rw [d.fireTimers_eq tasks w running]
    exact ⟨rfl, rfl,
      fun k t listed => ⟨Dispatcher.turn_of_fires listed, Dispatcher.turn_of_not_fires⟩, rfl⟩

section Example

def everyQuarter (block : String) : Stack :=
  ⟨1, 0, 0, [⟨1, "onTimer", [("seconds", .number (.real 0.25))], [], []⟩, ⟨2, block, [], [], []⟩]⟩

def alone : Scene :=
  ({} : Scene).allocate.2.spawn { id := ⟨1⟩, scripts := [everyQuarter "addScore"] }

def together : Scene :=
  (({} : Scene).allocate.2.spawn { id := ⟨1⟩, scripts := [everyQuarter "destroy"] }).allocate.2.spawn
    { id := ⟨2⟩, scripts := [everyQuarter "addScore"] }

def quarterly (owner : ObjectId) (i : Instruction) : Timer :=
  ⟨⟨owner, ⟨.timer 0.25, [("seconds", .number 0.25)], [i]⟩⟩, 0.25, 0 + 0.25⟩

def score : Instruction := ⟨.addScore, [("amount", .number 10)], .command, .addScore 10, [], []⟩

def vanishing : Instruction := ⟨.destroy, [], .command, .destroy, [], []⟩

theorem launch_vanishing (d : Dispatcher) (tasks : Scheduler) (w : World)
    (running : w.running = true) (there : w.scene.contains ⟨1⟩ = true)
    (room : tasks.tasks.length < w.config.mostTasks) :
    (d.launch (quarterly ⟨1⟩ vanishing).entry tasks w).2 = w.removeObject ⟨1⟩ := by
  have finish : Task.step d.program ⟨1⟩ [.sequence [vanishing]] w =
      (.finish, w.removeObject ⟨1⟩) := by
    simp only [Task.step, running]
    rfl
  exact congrArg Prod.snd (Scheduler.launch_of_drive (Task.drive_finish finish {})
    (List.cons_ne_nil _ _) running there room)

/-- The timer of the second object fires at its time, though that before it took its object away. -/
theorem timer_beside_vanishing :
    let run := (ofScene {} alone).start {}
    let run' := (ofScene {} together).start {}
    run.GoesOn ([] ++ [.tick 0.25]) ∧ run'.GoesOn ([] ++ [.tick 0.25]) ∧
    ⟨1⟩ ∉ (run'.worldAtTurn 1 0.25).scene.ids ∧
    run.FiresTimer 0 0.25 ∧ run'.FiresTimer 1 0.25 := by
  intro run run'
  have goesOn : run.GoesOn ([] ++ [.tick 0.25]) := goesOn_start _ _ _
  have goesOn' : run'.GoesOn ([] ++ [.tick 0.25]) := goesOn_start _ _ _
  have listed : (Program.ofScene .standard alone).timers[0]? = some (quarterly ⟨1⟩ score) := rfl
  have listed' : (Program.ofScene .standard together).timers[1]? =
      some (quarterly ⟨2⟩ score) := rfl
  have ids : (run'.worldAtTurn 1 0.25).scene.ids = [⟨2⟩] := by
    let call := run'.atTimers 0.25
    obtain ⟨first, now⟩ : call.dispatcher.timers[0]? = some (quarterly ⟨1⟩ vanishing) ∧
        call.world.now = 0 + frameTime 0.25 :=
      timer_atTimers goesOn' (k := 0) (t := quarterly ⟨1⟩ vanishing) rfl
    have due : (quarterly ⟨1⟩ vanishing).isDue call.world.now = true := by
      rw [now]
      decide +kernel
    rw [worldAtTurn, Dispatcher.turn_succ first, if_pos due]
    exact congrArg (·.scene.ids) (launch_vanishing _ call.scheduler call.world rfl rfl (by decide))
  have kept' : ⟨2⟩ ∈ (run'.worldAtTurn 1 0.25).scene.ids := by
    rw [ids]
    exact List.mem_singleton_self _
  have kept : ⟨1⟩ ∈ (run.worldAtTurn 0 0.25).scene.ids := List.mem_singleton_self _
  have fires : run.FiresTimer 0 0.25 := (firesTimer_iff goesOn listed kept).2 (by decide +kernel)
  have same := (timers_undisturbed goesOn goesOn' rfl listed listed' rfl).1 kept kept'
  exact ⟨goesOn, goesOn', by rw [ids]; decide, fires, same.1 fires⟩

end Example

end Session
end BlockStage
