import BlockStage.Proofs.Events.Raising
import BlockStage.Proofs.Session.Opening
import BlockStage.Proofs.Session.Reach

/-! The way of a raised event: it waits in the queue, first come, first served, until a flush takes
it out and dispatches it. As long as a run lasts no event is lost, overtaken or dispatched twice. -/

namespace BlockStage

/-! ### Whom an event reaches -/

def Program.Entry.startedBy (entry : Program.Entry) (event : Event) (target : Option ObjectId) :
    Bool :=
  (match target with
    | some id => decide (id = entry.owner)
    | none => true)
  && entry.script.trigger.accepts event

namespace Dispatcher

variable (d : Dispatcher) (event : Event) (target : Option ObjectId)

def takeTurn (x : Nat × Scheduler × World) (entry : Program.Entry) : Nat × Scheduler × World :=
  let (count, s, w) := x
  if entry.startedBy event target = true ∧ entry.owner ∈ w.scene.ids then
    (count + 1, s.launch d.program entry.owner entry.script.body w)
  else (count, s, w)

/-- A dispatch goes over the program once, and gives every entry one turn. -/
theorem dispatch_eq_foldl (running : d.state = .running) (s : Scheduler) (w : World) :
    d.dispatch event target s w = d.program.entries.foldl (d.takeTurn event target) (0, s, w) := by
  have turns (entries : List Program.Entry) (count : Nat) (s : Scheduler) (w : World) :
      entries.foldl (d.takeTurn event target) (count, s, w) =
        let r := d.launchAll (entries.filter (·.startedBy event target)) s w
        (count + r.1, r.2) := by
    induction entries generalizing count s w with
    | nil => rfl
    | cons entry rest ih =>
      rw [List.foldl_cons, takeTurn]
      by_cases starts : entry.startedBy event target = true
      · simp only [List.filter_cons, starts, if_true, launchAll, true_and, Scene.contains_iff]
        split
        · exact (ih (count + 1) _ _).trans (Prod.ext (Nat.add_right_comm count 1 _) rfl)
        · exact ih count s w
      · simp only [List.filter_cons, starts]
        exact ih count s w
  rw [dispatch, if_pos running, turns]
  exact Prod.ext (Nat.zero_add _).symm rfl

end Dispatcher

/-! ### The mail of a run -/

/-- The events that are raised in some part of a run, and those that are taken out of the queue to
be dispatched. -/
structure Mail where
  raised : List RaisedEvent := []
  delivered : List RaisedEvent := []

namespace Mail

instance : Append Mail := ⟨fun m m' => ⟨m.raised ++ m'.raised, m.delivered ++ m'.delivered⟩⟩

end Mail

def World.countdownEnds (w : World) (dt : Float) : Bool := w.countdown.any (· - dt ≤ 0)

theorem World.raised_advanceCountdown (w : World) (dt : Float) :
    (w.advanceCountdown dt).raised.toList =
      w.raised.toList ++ if w.countdownEnds dt then [Event.timerDone.toAll] else [] := by
  unfold advanceCountdown countdownEnds
  cases w.countdown with
  | none => exact (List.append_nil _).symm
  | some left =>
    have shown (w : World) (same? : Bool) (value : Float) :
        (if same? then w else w.setVar "timer" value).raised = w.raised := by
      split <;> rfl
    dsimp only [Option.any_some]
    by_cases ended : left - dt ≤ 0
    · simp only [ended, if_true, decide_true]
      exact (Queue.toList_push _ _).trans (by rw [shown]; rfl)
    · simp only [ended, if_false, decide_false, Bool.false_eq_true, List.append_nil, shown]

namespace Session

/-- The queue passes the mail on in its order. -/
def Carried (s : Session) (m : Mail) (s' : Session) : Prop :=
  s.world.raised.toList ++ m.raised = m.delivered ++ s'.world.raised.toList

namespace Carried

variable {s s' s'' : Session} {m m' : Mail}

theorem nothing (kept : s'.world.raised = s.world.raised) : Carried s {} s' := by
  rw [Carried, kept, List.append_nil, List.nil_append]

theorem of_raises {ds : List Deed} (h : Raises s.world ds s'.world) :
    Carried s { raised := raisedBy ds } s' :=
  h.symm

theorem trans (first : Carried s m s') (second : Carried s' m' s'') : Carried s (m ++ m') s'' :=
  calc s.world.raised.toList ++ (m.raised ++ m'.raised)
    _ = (m.delivered ++ s'.world.raised.toList) ++ m'.raised := by rw [← List.append_assoc, first]
    _ = (m.delivered ++ m'.delivered) ++ s''.world.raised.toList := by
      rw [List.append_assoc, second, List.append_assoc]

theorem prepend (kept : s'.world.raised = s.world.raised) (h : Carried s' m s'') :
    Carried s m s'' := by
  rw [Carried, ← kept]
  exact h

theorem append (h : Carried s m s') (kept : s''.world.raised = s'.world.raised) :
    Carried s m s'' := by
  rw [Carried, kept]
  exact h

end Carried

/-! ### Dispatches and flushes -/

def dispatchMail (s : Session) (event : Event) (target : Option ObjectId) : Mail :=
  { raised := raisedBy (s.dispatcher.dispatchDeeds event target s.scheduler s.world) }

theorem carried_dispatch (s : Session) (event : Event) (target : Option ObjectId) :
    Carried s (s.dispatchMail event target) (s.dispatch event target).2 :=
  .of_raises (s.dispatcher.raises_dispatch s.scheduler s.world event target)

def deliver (s : Session) (r : RaisedEvent) : Session :=
  let world := match s.world.popRaised? with
    | some (_, world) => world
    | none => s.world
  ({ s with world }.dispatch r.event r.target).2

def flushUpToMail : (budget : Nat) → Session → Mail
  | 0, _ => {}
  | budget + 1, s =>
    match s.world.popRaised? with
    | none => {}
    | some (r, world) =>
      { delivered := [r] } ++ { s with world }.dispatchMail r.event r.target ++
        flushUpToMail budget ({ s with world }.dispatch r.event r.target).2

def flushMail (s : Session) : Mail := s.flushUpToMail s.world.config.eventsPerFrame

theorem raised_of_popRaised? {w w' : World} {r : RaisedEvent}
    (h : w.popRaised? = some (r, w')) : w.raised.toList = r :: w'.raised.toList := by
  obtain ⟨p, popped, eq⟩ := Option.map_eq_some_iff.1 h
  obtain ⟨rfl, rfl⟩ := Prod.mk.inj eq
  exact Queue.toList_of_pop? popped

theorem raised_of_popRaised?_eq_none {w : World} (h : w.popRaised? = none) :
    w.raised.toList = [] :=
  Queue.pop?_eq_none (Option.map_eq_none_iff.1 h)

theorem carried_flushUpTo (budget : Nat) (s : Session) :
    Carried s (s.flushUpToMail budget) (s.flushUpTo budget) := by
  induction budget generalizing s with
  | zero => exact .nothing rfl
  | succ budget ih =>
    simp only [flushUpTo, flushUpToMail]
    cases hp : s.world.popRaised? with
    | none => exact .nothing rfl
    | some popped =>
      obtain ⟨r, world⟩ := popped
      have taken : Carried s { delivered := [r] } { s with world } := by
        rw [Carried, List.append_nil, raised_of_popRaised? hp]
        rfl
      exact (taken.trans (carried_dispatch _ _ _)).trans (ih _)

theorem flush_exhausts (budget : Nat) (s : Session) :
    (s.flushUpToMail budget).delivered.length = budget ∨
      (s.flushUpToMail budget).delivered.length ≤ budget ∧
        (s.flushUpTo budget).world.raised.toList = [] := by
  induction budget generalizing s with
  | zero => exact .inl rfl
  | succ budget ih =>
    simp only [flushUpTo, flushUpToMail]
    cases hp : s.world.popRaised? with
    | none => exact .inr ⟨Nat.zero_le _, raised_of_popRaised?_eq_none hp⟩
    | some popped =>
      obtain ⟨r, world⟩ := popped
      have longer (m : Mail) (event : Event) (u : Session) :
          (Mail.mk [] [r] ++ u.dispatchMail event r.target ++ m).delivered.length =
            m.delivered.length + 1 := rfl
      simp only [longer]
      rcases ih ({ s with world }.dispatch r.event r.target).2 with spent | ⟨within, empty⟩
      · exact .inl (by rw [spent])
      · exact .inr ⟨Nat.succ_le_succ within, empty⟩

theorem delivered_flushUpTo (budget : Nat) (s : Session) :
    let available := s.world.raised.toList ++ (s.flushUpToMail budget).raised
    (s.flushUpToMail budget).delivered = available.take budget ∧
      (s.flushUpTo budget).world.raised.toList = available.drop budget := by
  intro available
  have carried : available = _ := s.carried_flushUpTo budget
  rw [carried]
  rcases s.flush_exhausts budget with spent | ⟨within, empty⟩
  · exact ⟨(List.take_left' spent).symm, (List.drop_left' spent).symm⟩
  · rw [empty, List.append_nil]
    exact ⟨(List.take_of_length_le within).symm, (List.drop_eq_nil_of_le within).symm⟩

theorem flushUpTo_eq_foldl (budget : Nat) (s : Session) :
    s.flushUpTo budget = (s.flushUpToMail budget).delivered.foldl deliver s := by
  induction budget generalizing s with
  | zero => rfl
  | succ budget ih =>
    simp only [flushUpTo, flushUpToMail]
    cases hp : s.world.popRaised? with
    | none => rfl
    | some popped =>
      obtain ⟨r, world⟩ := popped
      have delivered : s.deliver r = ({ s with world }.dispatch r.event r.target).2 := by
        simp only [deliver, hp]
      simp only [ih, ← delivered]
      rfl

/-! ### Frames -/

def touchAllMail : List ObjectId → Session → Mail
  | [], _ => {}
  | id :: rest, s =>
    s.dispatchMail (.collide "player") (some id) ++
      touchAllMail rest (s.dispatch (.collide "player") (some id)).2

def touchNearbyMail (s : Session) : Mail :=
  touchAllMail (s.world.player.nearby s.world.scene s.world.config.interactionRadius) s

theorem carried_touchNearby (s : Session) :
    Carried s s.touchNearbyMail s.touchNearby := by
  have touched (ids : List ObjectId) (s : Session) : Carried s (touchAllMail ids s)
      (ids.foldl (fun s id => (s.dispatch (.collide "player") (some id)).2) s) := by
    induction ids generalizing s with
    | nil => exact .nothing rfl
    | cons id rest ih => exact (s.carried_dispatch _ _).trans (ih _)
  exact touched _ s

theorem raised_stepEffects (s : Session) (steps : Nat) :
    (s.stepEffects steps).world.raised = s.world.raised := by
  have stepped (steps : Nat) (dt : Float32) (w : World) :
      (Nat.repeat (·.stepEffects dt) steps w).raised = w.raised := by
    induction steps with
    | zero => rfl
    | succ steps ih => exact ih
  exact stepped steps _ _

def countdownMail (w : World) (dt : Float) : Mail :=
  { raised := if w.countdownEnds dt then [Event.timerDone.toAll] else [] }

def tickTasksMail (s : Session) : Mail :=
  { raised := raisedBy (s.scheduler.tickDeeds s.dispatcher.program s.world) }

def advanceMail (s : Session) (dt : Float) : Mail :=
  let fired := s.fireTimers
  let (steps, clock) := fired.clock.accumulate (Scalar.narrow dt)
  let moved := { fired with clock }.movePlayer steps
  let stepped := moved.touchNearby.stepEffects steps
  let counted : Session := { stepped with
    camera := stepped.camera.follow stepped.world.player (Scalar.narrow dt)
    world := stepped.world.advanceCountdown dt }
  { raised := raisedBy (s.dispatcher.fireDeeds s.scheduler s.world) } ++ moved.touchNearbyMail ++
    countdownMail stepped.world dt ++ counted.tickTasksMail ++ counted.tickTasks.flushMail

theorem carried_advance (s : Session) (dt : Float) :
    Carried s (s.advanceMail dt) (s.advance dt) := by
  have fired : Carried s { raised := raisedBy (s.dispatcher.fireDeeds s.scheduler s.world) }
      s.fireTimers :=
    .of_raises (s.dispatcher.raises_fireTimers s.scheduler s.world)
  have moved (s : Session) (steps : Nat) (clock : FixedClock) :
      Carried s ({ s with clock }.movePlayer steps).touchNearbyMail
        (({ s with clock }.movePlayer steps).touchNearby.stepEffects steps) := by
    have touched := carried_touchNearby ({ s with clock }.movePlayer steps)
    exact (touched.prepend rfl).append (raised_stepEffects _ steps)
  have counted (s : Session) (camera : Camera) : Carried s (countdownMail s.world dt)
      { s with camera, world := s.world.advanceCountdown dt } :=
    (s.world.raised_advanceCountdown dt).symm
  have ticked (s : Session) : Carried s s.tickTasksMail s.tickTasks :=
    .of_raises (Scheduler.raises_tick _ _ _)
  rcases hc : s.fireTimers.clock.accumulate (Scalar.narrow dt) with ⟨steps, clock⟩
  simp only [advance, advanceMail, hc]
  exact (((fired.trans (moved _ _ _)).trans (counted _ _)).trans (ticked _)).trans
    (carried_flushUpTo _ _)

def handleMail (s : Session) : InputEvent → Mail
  | .keyDown key =>
    let key := keyLabel key
    if key = stopKey then {} else (s.modifyInput (·.press key)).dispatchMail (.key key) none
  | .click object => s.dispatchMail .click (some object)
  | _ => {}

theorem carried_handle {s : Session} {event : InputEvent}
    (still : (s.handle event).isRunning = true) :
    Carried s (s.handleMail event) (s.handle event) := by
  cases event with
  | keyDown key =>
    simp only [handle, handleMail, press] at still ⊢
    split
    · rename_i stops
      rw [if_pos stops, isRunning_stop] at still
      contradiction
    · have pressed :=
        carried_dispatch (s.modifyInput (·.press (keyLabel key))) (.key (keyLabel key)) none
      exact pressed.prepend rfl
  | keyUp key => exact .nothing rfl
  | click object => exact s.carried_dispatch _ _
  | pointer delta => exact .nothing rfl
  | target point => exact .nothing rfl

def handleAllMail : List InputEvent → Session → Mail
  | [], _ => {}
  | event :: rest, s =>
    let handled := s.handle event
    s.handleMail event ++ if handled.isRunning then handleAllMail rest handled else {}

theorem carried_handleAll {events : List InputEvent} {s : Session}
    (still : (handleAll events s).isRunning = true) :
    Carried s (handleAllMail events s) (handleAll events s) := by
  induction events generalizing s with
  | nil => exact .nothing rfl
  | cons event rest ih =>
    simp only [handleAll, handleAllMail] at still ⊢
    split
    · rename_i running
      rw [if_pos running] at still
      exact (carried_handle running).trans (ih still)
    · rename_i ended
      rw [if_neg ended] at still
      exact absurd still ended

def tickMail (s : Session) (dt : Float32) : Mail :=
  if s.isRunning then
    let dt := frameTime dt
    let s : Session := { s with world := { s.world with now := s.world.now + dt } }
    handleAllMail s.inbox.toList { s with inbox := {} } ++
      if s.processInput.isRunning then s.processInput.advanceMail dt else {}
  else {}

theorem carried_tick {s : Session} {dt : Float32} (still : (s.tick dt).isRunning = true) :
    Carried s (s.tickMail dt) (s.tick dt) := by
  simp only [tick, tickMail] at still ⊢
  split
  · rename_i running
    rw [if_pos running] at still
    split
    · rename_i proceeds
      have handled := carried_handleAll proceeds
      exact (handled.prepend rfl).trans (carried_advance _ _)
    · rename_i ended
      rw [if_neg ended] at still
      exact absurd still ended
  · exact .nothing rfl

/-! ### Runs -/

def startMail (s : Session) (settings : Settings) : Mail :=
  let opened := s.opened settings
  let started := (opened.dispatch .start none).2
  let levelled := (started.dispatch .levelStart none).2
  opened.dispatchMail .start none ++ started.dispatchMail .levelStart none ++ levelled.flushMail

theorem carried_start (s : Session) (settings : Settings) :
    Carried (s.opened settings) (s.startMail settings) (s.start settings) :=
  ((carried_dispatch _ _ _).trans (carried_dispatch _ _ _)).trans (carried_flushUpTo _ _)

def Action.Starts : Action → Prop
  | start _ => True
  | _ => False

def actMail (s : Session) : Action → Mail
  | .start settings => s.startMail settings
  | .tick dt => s.tickMail dt
  | .dispatch event target => s.dispatchMail event target
  | _ => {}

def actAllMail (s : Session) : List Action → Mail
  | [] => {}
  | a :: rest => s.actMail a ++ (s.act a).actAllMail rest

/-- Only a start brings a run about; whatever else leaves it going has carried the mail on. -/
theorem carried_act {s : Session} {a : Action} (no_start : ¬ a.Starts)
    (still : (s.act a).isRunning = true) :
    s.isRunning = true ∧ Carried s (s.actMail a) (s.act a) := by
  cases a with
  | load text =>
    simp only [act, load] at still ⊢
    cases hp : Project.parse text with
    | error e =>
      rw [hp] at still
      exact ⟨still, .nothing rfl⟩
    | ok project =>
      rw [hp] at still
      exact absurd (s.isRunning_stop.symm.trans still) (by simp)
  | setScripts id canvas =>
    simp only [act, setScripts] at still ⊢
    cases hs : s.world.scene.setScripts id canvas with
    | error e =>
      rw [hs] at still
      exact ⟨still, .nothing rfl⟩
    | ok scene =>
      rw [hs] at still
      exact ⟨still, .nothing rfl⟩
  | edit change => exact ⟨still, .nothing rfl⟩
  | start settings => exact absurd trivial no_start
  | stop => exact absurd (s.isRunning_stop.symm.trans still) (by simp)
  | receive event => exact ⟨still, .nothing rfl⟩
  | tick dt =>
    refine ⟨?_, carried_tick still⟩
    cases idle : s.isRunning with
    | true => rfl
    | false =>
      simp only [act, tick, idle, Bool.false_eq_true, if_false] at still
      exact absurd (idle.symm.trans still) (by simp)
  | dispatch event target =>
    refine ⟨?_, s.carried_dispatch event target⟩
    have kept := (s.continues_dispatch event target)
    rw [isRunning, ← kept.running, ← kept.state]
    exact still
  | removeObject id =>
    refine ⟨?_, .nothing (s.world.raised_removeObject id)⟩
    rw [isRunning, ← (s.world.evolves_removeObject id).running]
    exact still
  | drainNotices => exact ⟨still, .nothing rfl⟩
  | resize width height => exact ⟨still, .nothing rfl⟩

theorem carried_actAll {s : Session} {actions : List Action}
    (no_start : ∀ a ∈ actions, ¬ a.Starts) (still : (s.actAll actions).isRunning = true) :
    s.isRunning = true ∧ Carried s (s.actAllMail actions) (s.actAll actions) := by
  induction actions generalizing s with
  | nil => exact ⟨still, .nothing rfl⟩
  | cons a rest ih =>
    rw [List.forall_mem_cons] at no_start
    obtain ⟨running, later⟩ := ih no_start.2 still
    obtain ⟨running, now⟩ := carried_act no_start.1 running
    exact ⟨running, now.trans later⟩

/-- From the start of a run on, the events raised are those delivered so far and then those that
wait, in one order. A flush takes as many as its budget allows of the events that wait or are raised
meanwhile, from the first on, and dispatches each. A dispatch gives every entry of the program one
turn, in order, and launches its script just if the event starts it and its object is there. -/
theorem raised_delivered_once (s : Session) (settings : Settings) (actions : List Action)
    (one_run : ∀ a ∈ actions, ¬ a.Starts)
    (lasting : ((s.start settings).actAll actions).isRunning = true) :
    let mail := s.startMail settings ++ (s.start settings).actAllMail actions
    mail.raised =
      mail.delivered ++ ((s.start settings).actAll actions).world.raised.toList ∧
    (∀ t : Session,
      let budget := t.world.config.eventsPerFrame
      let available := t.world.raised.toList ++ t.flushMail.raised
      t.flushMail.delivered = available.take budget ∧
      t.flushMail.delivered.length = min budget available.length ∧
      t.flush.world.raised.toList = available.drop budget ∧
      t.flush = t.flushMail.delivered.foldl deliver t) ∧
    ∀ (d : Dispatcher) (event : Event) (target : Option ObjectId) (tasks : Scheduler) (w : World),
      d.state = .running →
      d.dispatch event target tasks w =
        d.program.entries.foldl (d.takeTurn event target) (0, tasks, w) := by
  refine ⟨?_, fun t => ?_, fun d event target tasks w running =>
    d.dispatch_eq_foldl event target running tasks w⟩
  · have carried := (s.carried_start settings).trans (carried_actAll one_run lasting).2
    rw [Carried, raised_opened] at carried
    exact carried
  · obtain ⟨delivered, left⟩ := t.delivered_flushUpTo t.world.config.eventsPerFrame
    refine ⟨delivered, ?_, left, t.flushUpTo_eq_foldl _⟩
    rw [flushMail, delivered, List.length_take]

section Example

def calling : Scene where
  objects := [{
    id := ⟨1⟩
    scripts := [⟨1, 0, 0, [⟨1, "onStart", [], [], []⟩, ⟨2, "broadcast", [], [], []⟩]⟩] }]
  nextId := 2

def callingSession : Session := (ofConfig {}).actAll [.edit fun _ => calling]

def callOut : Instruction := ⟨.broadcast, [("msg", .text "go")], .command, .broadcast "go", [], []⟩

theorem matching_calling :
    (callingSession.opened {}).dispatcher.program.matching .start none =
      [⟨⟨1⟩, ⟨.start, [], [callOut]⟩⟩] := rfl

theorem calls_out : Event.toAll (.message "go") ∈ (callingSession.startMail {}).raised := by
  have executed (program : Program) {w : World} (running : w.running = true) :
      ⟨⟨1⟩, .executes callOut, w⟩ ∈ Task.deeds program ⟨1⟩ [.sequence [callOut]] w := by
    refine Task.stepDeeds_subset_deeds ?_
    simp [Task.stepDeeds, running, Task.mostFrames, Frame.act?]
  refine List.mem_append_left _ (List.mem_append_left _ (List.mem_flatMap.2
    ⟨⟨⟨1⟩, .executes callOut, (callingSession.opened {}).world⟩, ?_, List.mem_cons_self⟩))
  have running : (callingSession.opened {}).dispatcher.state = .running := rfl
  have there : ((callingSession.opened {}).world.running && !List.isEmpty [callOut] &&
      (callingSession.opened {}).world.scene.contains ⟨1⟩) = true := rfl
  rw [Dispatcher.dispatchDeeds, if_pos running, matching_calling]
  refine List.mem_append_left _ ?_
  rw [Scheduler.launchDeeds, if_pos there, Scheduler.startDeeds_eq_first]
  exact List.mem_append_left _ (List.mem_cons_of_mem _ (executed _ rfl))

def afterCall : List Action := [.receive (.click ⟨1⟩), .removeObject ⟨1⟩]

/-- The message is delivered or waits, though its sender is removed. -/
theorem raised_delivered_calling :
    (∀ a ∈ afterCall, ¬ a.Starts) ∧
      ((callingSession.start {}).actAll afterCall).isRunning = true ∧
      Event.toAll (.message "go") ∈
        (callingSession.startMail {} ++ (callingSession.start {}).actAllMail afterCall).delivered ++
          ((callingSession.start {}).actAll afterCall).world.raised.toList := by
  have one_run : ∀ a ∈ afterCall, ¬ a.Starts := by simp [afterCall, Action.Starts]
  have settled : Settled callingSession := settled_actAll (settled_ofConfig {}) _
  obtain ⟨started, snapshot, -⟩ := settled.start {}
  have later : Settled ((callingSession.start {}).actAll afterCall) := settled_actAll started _
  have lasting : ((callingSession.start {}).actAll afterCall).isRunning = true := by
    rw [later.isRunning]
    change (callingSession.start {}).snapshot.isSome = true
    rw [snapshot]
    rfl
  refine ⟨one_run, lasting, ?_⟩
  rw [← (raised_delivered_once callingSession {} afterCall one_run lasting).1]
  exact List.mem_append_left _ calls_out

end Example

end Session
end BlockStage
