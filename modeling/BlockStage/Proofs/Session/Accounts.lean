import BlockStage.Proofs.Log.Covering
import BlockStage.Proofs.Session.Recording
import BlockStage.Proofs.Session.Resting

/-! The account of a run of a session, from its first event to its end: the log of the run with the
steps of the countdown in their places, and between these what the log leaves out. -/

namespace BlockStage

theorem Posting.outcome_takes {w w' : World} {r : RaisedEvent} (h : w.popRaised? = some (r, w')) :
    (takes w).outcome = w' := by
  simp only [outcome, h]

theorem World.covered_animation {p : Program} (dt : Float32) (steps : Nat) (w : World) :
    Covered p w (w.animationLog dt steps).posted (Nat.repeat (·.stepEffects dt) steps w) := by
  induction steps with
  | zero => exact .refl w
  | succ steps ih =>
    rw [animationLog, Log.posted_append]
    exact ih.trans (.single (x := .happens (.animates dt _)) rfl (.of_idle rfl))

namespace Session

structure From (p : Program) (s : Session) : Prop where
  dispatcher : s.dispatcher.From p
  tasks : s.scheduler.From p

/-- Where one session runs the program, so does the other, and there is an account of the work that
leads to it. -/
def Posts (p : Program) (s : Session) (listed : Account) (s' : Session) : Prop :=
  s.From p → s'.From p ∧ Covered p s.world listed s'.world

variable {p : Program} {s s' s'' : Session} {listed listed' : Account}

namespace Posts

protected theorem refl (s : Session) : Posts p s [] s := fun h => ⟨h, .refl s.world⟩

protected theorem trans (first : Posts p s listed s') (second : Posts p s' listed' s'') :
    Posts p s (listed ++ listed') s'' := fun h =>
  have ⟨h', covered⟩ := first h
  have ⟨h'', covered'⟩ := second h'
  ⟨h'', covered.trans covered'⟩

theorem aside (dispatcher : s'.dispatcher = s.dispatcher) (tasks : s'.scheduler = s.scheduler)
    (same : s.world.SameBooks s'.world) : Posts p s [] s' := fun h =>
  ⟨⟨dispatcher ▸ h.dispatcher, tasks ▸ h.tasks⟩, .nothing same⟩

theorem prepend (h : Posts p s' listed s'') (dispatcher : s'.dispatcher = s.dispatcher)
    (tasks : s'.scheduler = s.scheduler) (same : s.world.SameBooks s'.world) :
    Posts p s listed s'' :=
  (Posts.aside dispatcher tasks same).trans h

end Posts

/-! ### Dispatches and flushes -/

theorem posts_dispatch (s : Session) (event : Event) (target : Option ObjectId) :
    Posts p s (s.dispatchLog event target).posted (s.dispatch event target).2 := fun h =>
  have ⟨tasks, covered⟩ := h.dispatcher.works_dispatch event target s.scheduler s.world h.tasks
  ⟨⟨h.dispatcher, tasks⟩, covered⟩

theorem posts_flushUpTo (budget : Nat) (s : Session) :
    Posts p s (s.flushUpToLog budget).posted (s.flushUpTo budget) := by
  induction budget generalizing s with
  | zero => exact .refl s
  | succ budget ih =>
    simp only [flushUpTo, flushUpToLog]
    cases popped : s.world.popRaised? with
    | none => exact .refl s
    | some next =>
      obtain ⟨raised, world⟩ := next
      have taken : Posts p s [] { s with world } := fun h => by
        have taken : Covered p s.world [] (Posting.takes s.world).outcome :=
          .unlisted (x := .takes s.world) rfl (.of_idle rfl)
        rw [Posting.outcome_takes popped] at taken
        exact ⟨⟨h.dispatcher, h.tasks⟩, taken⟩
      dsimp only
      rw [Log.posted_append]
      exact taken.trans ((posts_dispatch _ raised.event raised.target).trans (ih _))

theorem posts_flush (s : Session) : Posts p s s.flushLog.posted s.flush := posts_flushUpTo _ s

/-! ### Frames -/

theorem posts_fireTimers (s : Session) :
    Posts p s (s.dispatcher.fireLog s.scheduler s.world).posted s.fireTimers := fun h =>
  have ⟨fired, launches⟩ := h.dispatcher.works_fireTimers s.scheduler s.world
  have ⟨tasks, covered⟩ := fired h.tasks
  ⟨⟨launches, tasks⟩, covered⟩

theorem posts_touchNearby (s : Session) : Posts p s s.touchNearbyLog.posted s.touchNearby := by
  have touched (ids : List ObjectId) (s : Session) : Posts p s (touchAllLog ids s).posted
      (ids.foldl (fun s id => (s.dispatch (.collide "player") (some id)).2) s) := by
    induction ids generalizing s with
    | nil => exact .refl s
    | cons id rest ih =>
      rw [touchAllLog, Log.posted_append]
      exact (s.posts_dispatch _ _).trans (ih _)
  exact touched _ s

theorem posts_stepEffects (s : Session) (steps : Nat) :
    Posts p s (s.world.animationLog s.clock.step steps).posted (s.stepEffects steps) := fun h =>
  ⟨⟨h.dispatcher, h.tasks⟩, s.world.covered_animation s.clock.step steps⟩

theorem posts_count (s : Session) (camera : Camera) (dt : Float) :
    Posts p s [.counts dt s.world] { s with camera, world := s.world.advanceCountdown dt } :=
  fun h => ⟨⟨h.dispatcher, h.tasks⟩, .single (x := .counts dt s.world) rfl (.of_idle rfl)⟩

theorem posts_tickTasks (s : Session) : Posts p s s.tickTasksLog.posted s.tickTasks := fun h => by
  have same := h.dispatcher.program
  have ⟨tasks, covered⟩ := Scheduler.works_tick s.scheduler s.world h.tasks
  subst same
  exact ⟨⟨h.dispatcher, tasks⟩, covered⟩

/-- The part of a frame that follows the user's input, with its step of the countdown. -/
def advanceAccount (s : Session) (dt : Float) : Account :=
  let fired := s.fireTimers
  let (steps, clock) := fired.clock.accumulate (Scalar.narrow dt)
  let moved := { fired with clock }.movePlayer steps
  let touched := moved.touchNearby
  let stepped := touched.stepEffects steps
  let counted : Session := { stepped with
    camera := stepped.camera.follow stepped.world.player (Scalar.narrow dt)
    world := stepped.world.advanceCountdown dt }
  (s.dispatcher.fireLog s.scheduler s.world).posted ++ moved.touchNearbyLog.posted ++
    (touched.world.animationLog touched.clock.step steps).posted ++ [.counts dt stepped.world] ++
    counted.tickTasksLog.posted ++ counted.tickTasks.flushLog.posted

theorem posts_advance (s : Session) (dt : Float) :
    Posts p s (s.advanceAccount dt) (s.advance dt) := by
  have fired := posts_fireTimers (p := p) s
  rcases hc : s.fireTimers.clock.accumulate (Scalar.narrow dt) with ⟨steps, clock⟩
  simp only [advance, advanceAccount, hc]
  have moved : Posts p s.fireTimers [] ({ s.fireTimers with clock }.movePlayer steps) :=
    .aside rfl rfl ⟨rfl, rfl, rfl⟩
  generalize { s.fireTimers with clock }.movePlayer steps = walked at moved ⊢
  have animated := (posts_touchNearby (p := p) walked).trans (posts_stepEffects _ steps)
  generalize walked.touchNearby.stepEffects steps = stepped at animated ⊢
  have counted := posts_count (p := p) stepped
    (stepped.camera.follow stepped.world.player (Scalar.narrow dt)) dt
  generalize ({ stepped with
    camera := stepped.camera.follow stepped.world.player (Scalar.narrow dt)
    world := stepped.world.advanceCountdown dt } : Session) = later at counted ⊢
  have worked := (counted.trans (posts_tickTasks later)).trans (posts_flush _)
  simpa only [List.append_assoc, List.nil_append] using
    ((fired.trans moved).trans animated).trans worked

/-! ### Input -/

theorem posts_handle {event : InputEvent} (still : (s.handle event).isRunning = true) :
    Posts p s (s.handleLog event).posted (s.handle event) := by
  cases event with
  | keyDown key =>
    simp only [handle, handleLog, press] at still ⊢
    split
    · rename_i stops
      rw [if_pos stops, isRunning_stop] at still
      contradiction
    · have pressed := posts_dispatch (p := p) (s.modifyInput (·.press (keyLabel key)))
        (.key (keyLabel key)) none
      exact pressed.prepend rfl rfl ⟨rfl, rfl, rfl⟩
  | click object => exact s.posts_dispatch _ _
  | keyUp key => exact .aside rfl rfl ⟨rfl, rfl, rfl⟩
  | pointer delta => exact .aside rfl rfl ⟨rfl, rfl, rfl⟩
  | target point => exact .aside rfl rfl ⟨rfl, rfl, rfl⟩

theorem posts_handleToStop (s : Session) (events : List InputEvent) :
    Posts p s (s.handleToStopLog events).posted (s.handleToStop events) := by
  induction events generalizing s with
  | nil => exact .refl s
  | cons event rest ih =>
    rw [handleToStop, handleToStopLog]
    split
    · rw [Log.posted_append]
      exact (posts_handle ‹_›).trans (ih _)
    · exact .refl s

/-- A frame, up to the key that stops the run. A frame that is stopped does not count down. -/
def tickAccount (s : Session) (dt : Float32) : Account :=
  ((s.later dt).handleToStopLog s.inbox.toList).posted ++
    if (s.tick dt).isRunning then
      ((s.later dt).handleToStop s.inbox.toList).advanceAccount (frameTime dt)
    else []

theorem posts_tickToStop (s : Session) (dt : Float32) :
    Posts p s (s.tickAccount dt) (s.tickToStop dt) := by
  have handled : Posts p s ((s.later dt).handleToStopLog s.inbox.toList).posted
      ((s.later dt).handleToStop s.inbox.toList) :=
    (posts_handleToStop (s.later dt) s.inbox.toList).prepend rfl rfl ⟨rfl, rfl, rfl⟩
  refine handled.trans ?_
  unfold tickToStop
  dsimp only
  split
  · exact posts_advance _ _
  · exact .refl _

/-! ### Runs -/

theorem posts_start (s : Session) (settings : Settings) :
    Posts p (s.opened settings) (s.startLog settings).posted (s.start settings) := by
  simp only [startLog, Log.posted_append]
  exact ((posts_dispatch _ _ _).trans (posts_dispatch _ _ _)).trans (posts_flush _)

/-- The account of an action that is logged so: only frames count down. -/
def accountOf (s : Session) (log : Log) : Action → Account
  | .tick dt => s.tickAccount dt
  | _ => log.posted

theorem Does.posts {a : Action} {log : Log} (did : s.Does a log s') :
    Posts p s (s.accountOf log a) s' := by
  cases did with
  | frame dt => exact s.posts_tickToStop dt
  | scripts id canvas scene =>
    exact fun h => ⟨⟨h.dispatcher, h.tasks⟩,
      .single (x := .happens (.edits scene s.world)) rfl (.of_idle rfl)⟩
  | edits change =>
    exact fun h => ⟨⟨h.dispatcher, h.tasks⟩,
      .single (x := .happens (.edits (change s.world.scene) s.world)) rfl (.of_idle rfl)⟩
  | removes id =>
    exact fun h => ⟨⟨h.dispatcher, fun t there => h.tasks t (List.mem_filter.1 there).1⟩,
      .single (x := .happens (.removes id s.world)) rfl (.of_idle rfl)⟩
  | dispatches event target => exact s.posts_dispatch event target
  | receives | drains | resizes => exact .aside rfl rfl ⟨rfl, rfl, rfl⟩
  | loads | stops => exact .refl s

def playAccount (s : Session) : List Action → Account
  | [] => []
  | a :: rest =>
    s.accountOf (s.actLog a) a ++ if (s.act a).isRunning then (s.act a).playAccount rest else []

theorem posts_afterAll {actions : List Action} (lasts : s.OneRun actions) :
    Posts p s (s.playAccount actions) (s.afterAll actions) := by
  induction actions generalizing s with
  | nil => exact .refl s
  | cons a rest ih =>
    obtain ⟨running, other, later⟩ := lasts
    have first := (does_after running other).posts (p := p)
    rw [playAccount, afterAll]
    split
    · rename_i still
      rw [after_of_running still] at first
      exact first.trans (ih later)
    · rw [List.append_nil]
      exact first

def program (s : Session) : Program := .ofScene .standard s.ready.world.scene

/-- An account of the run that starts in `s`, up to the last of the actions: it lists what the log
lists and the steps of the countdown, leads from the opening to the end, and has no instruction that
does not stand in a script. -/
structure AccountedBy (s : Session) (settings : Settings) (actions : List Action)
    (account : Account) : Prop where
  listed : account.listed =
    (s.startLog settings).posted ++ (s.start settings).playAccount actions
  leads : Leads (s.opened settings).world account ((s.start settings).afterAll actions).world
  runs : ∀ x ∈ account, s.program.Runs x

theorem tasks_ready (config : Config) (before : List Action) :
    ((ofConfig config).actAll before).ready.scheduler.tasks = [] := by
  unfold ready
  split
  · rfl
  · exact (atRest_actAll (settled_ofConfig config) (fun _ => atRest_ofConfig config) before
      (Bool.eq_false_iff.2 ‹_›)).tasks

theorem exists_account (config : Config) (before : List Action) (settings : Settings)
    {actions : List Action} :
    let s := (ofConfig config).actAll before
    (s.start settings).OneRun actions → ∃ account, s.AccountedBy settings actions account := by
  intro s lasts
  have opened : (s.opened settings).From s.program := by
    constructor
    · exact Dispatcher.from_start _ _
    · have tasks : (s.opened settings).scheduler.tasks = [] := tasks_ready config before
      rw [Scheduler.From, tasks]
      exact List.forall_mem_nil _
  obtain ⟨-, account, listed, leads, runs⟩ :=
    ((s.posts_start settings).trans (posts_afterAll lasts)) opened
  exact ⟨account, listed, leads, runs⟩

end Session
end BlockStage
