import BlockStage.Proofs.Log.Landing
import BlockStage.Proofs.Session.Independence
import BlockStage.Proofs.Session.Recording

/-! Glides in a run, at any frame rate: the task that starts one goes on no earlier than the glide
is over, and by then it has landed. -/

namespace BlockStage

/-- The world in which a log begins; the last one if nothing happens any more. -/
def worldAt (log : Log) (last : World) : World := (log.head?.map Happening.world).getD last

theorem Trace.alike_worldAt {w last : World} {log : Log} (h : Trace w log last) :
    w.Alike (worldAt log last) := by
  cases log with
  | nil => exact h
  | cons x rest => exact h.1

theorem Trace.to_worldAt {w last : World} {log rest : Log} (h : Trace w (log ++ rest) last) :
    Trace w log (worldAt rest last) := by
  obtain ⟨w', first, second⟩ := h.split
  have joined : Trace w (log ++ []) (worldAt rest last) := first.append second.alike_worldAt
  rwa [List.append_nil] at joined

namespace Session

variable {s : Session}

theorem Records.trace {s' : Session} {log : Log} (h : s.Records log s') :
    Trace s.world log s'.world := Chronicle.trace h

theorem numbered_opened {config : Config} (h : Rooted config s) (settings : Settings) :
    (s.opened settings).moment.Numbered := by
  have idle : (s.opened settings).scheduler.tasks = [] := h.ready.1.tasks_of_idle h.ready.2
  have still : (s.opened settings).world.effects.records = [] := by
    simp only [opened, World.showAllVars_eq]
    rfl
  refine ⟨?_, ?_, ?_⟩
  · simp [moment, idle]
  · simp [moment, idle]
  · simp [moment, Registry.Bounded, still]

/-- Wherever in a run a task starts a glide, its record is live then, and the task does nothing more
as long as it is. If the record is over at some later time of the run, the object's effects were not
stopped and the object was not taken away, then it ended in a step of the animation that put the
object on the goal. If nothing else had a hand in where the object is, the task finds it on the goal
when it goes on. -/
theorem glide_lands_first (config : Config) (past : List Action) (settings : Settings)
    (actions : List Action)
    (one_run : (((ofConfig config).actAll past).start settings).OneRun actions) :
    let s := (ofConfig config).actAll past
    let run := s.start settings
    let log := s.startLog settings ++ run.playLog actions
    let last := run.afterAll actions
    (s.opened settings).Records log last ∧
    ∀ before task d after g, log = before ++ .does task d :: after → d.StartsGlide g →
      (worldAt after last.world).effects.contains g.record = true ∧
      (∀ d', .does task d' ∈ after → d'.world.effects.contains g.record = false) ∧
      (∀ during rest, after = during ++ rest → (∀ x ∈ during, ¬ x.Disturbs g.object) →
        (worldAt rest last.world).effects.contains g.record = false →
        ∃ dt w, .animates dt w ∈ during ∧ g.LandsIn dt w) ∧
      ∀ during d' rest, after = during ++ .does task d' :: rest →
        (∀ x ∈ during, ¬ x.Disturbs g.object) → (∀ x ∈ during, ¬ x.Interferes g) →
        g.Arrived d'.world.scene := by
  intro s run log last
  have records : (s.opened settings).Records log last :=
    (s.records_start settings).trans (records_afterAll one_run)
  have numbered := numbered_opened ((rooted_ofConfig config).actAll past) settings
  refine ⟨records, fun before task d after g split glides => ?_⟩
  rw [split] at records
  obtain ⟨w, first, same, later⟩ := records.trace.split
  have bounded : d.world.effects.Bounded :=
    same.effects ▸ first.continued.bounded numbered.records
  obtain ⟨recorded, live⟩ := glides.recorded bounded task
  have waits := records.waits_for_glide numbered glides
  refine ⟨?_, waits, fun during rest parts calm spent => ?_,
    fun during d' rest parts calm alone => ?_⟩
  · rw [later.alike_worldAt.effects]
    exact live
  · rw [parts] at later
    exact g.lands later.to_worldAt recorded live spent calm
  · rw [parts] at later
    refine g.arrives later.to_worldAt recorded (fun gone => ?_) calm alone (waits d' ?_)
    · rw [live] at gone
      contradiction
    · simp [parts]

section Example

/-- The object glides to the origin, in less time than one step of the animation takes, and then
its script stops. -/
def glider : Scene where
  objects := [{
    id := ⟨1⟩
    position := .up
    scripts := [⟨1, 0, 0, [⟨1, "onStart", [], [], []⟩,
      ⟨2, "glide", [("seconds", .number (.real 0.01))], [], []⟩,
      ⟨3, "stop", [], [], []⟩]⟩] }]
  nextId := 2

def gliderSession : Session := (ofConfig {}).actAll [.edit fun _ => glider]

def opening : Session := gliderSession.opened {}

def glideHome : Instruction where
  opcode := .glide
  arguments := [("seconds", .number 0.01), ("x", .number 0), ("y", .number 0), ("z", .number 0)]
  kind := .command
  command := .glide ⟨0, 0, 0⟩ 0.01 false
  children := []
  elseChildren := []

def halt : Instruction := ⟨.stop, [], .command, .stop, [], []⟩

def home : Glide := ⟨⟨0⟩, ⟨1⟩, ⟨0, 0, 0⟩⟩

def gliding : Session := { opening with
  scheduler := ⟨[⟨0, ⟨1⟩, [.sequence [halt]], .effect ⟨0⟩⟩], 1⟩
  world := (opening.world.addEffect ⟨1⟩ (.glide .up ⟨0, 0, 0⟩ (Scalar.narrow 0.01))).2 }

theorem matching_glider :
    opening.dispatcher.program.matching .start none =
      [⟨⟨1⟩, ⟨.start, [], [glideHome, halt]⟩⟩] := rfl

theorem step_glider : Task.step opening.dispatcher.program ⟨1⟩ [.sequence [glideHome, halt]]
    opening.world = (.suspend [.sequence [halt]] (.effect ⟨0⟩), gliding.world) := by
  have takes_time : ¬ (0.01 : Float) ≤ 0 := Scalar.not_le_zero_of_pos (by decide +kernel)
  have execute : glideHome.execute ⟨1⟩ opening.dispatcher.program opening.world =
      (.suspend (.effect ⟨0⟩), gliding.world) := by
    simp only [Instruction.execute, glideHome, World.glide]
    exact if_neg takes_time
  exact congrArg (fun p : Flow × World => (Task.Move.ofFlow _ p.1, p.2)) execute

theorem dispatch_glider :
    (opening.dispatch .start none).2 = gliding ∧
    opening.dispatchLog .start none =
      [.does 0 ⟨⟨1⟩, .starts (.sequence [glideHome, halt]), opening.world⟩,
        .does 0 ⟨⟨1⟩, .executes glideHome, opening.world⟩] := by
  have running : opening.dispatcher.state = .running := rfl
  have there : opening.world.scene.contains ⟨1⟩ = true := rfl
  have ready : (opening.world.running && !List.isEmpty [glideHome, halt] && true) = true := rfl
  have room : ¬ opening.world.config.mostTasks ≤ opening.scheduler.tasks.length := by decide
  have drive (q : Queue Frame) := Task.drive_suspend step_glider q
  have deeds := Task.deeds_halt step_glider rfl
  have started : Scheduler.startNext opening.dispatcher.program ⟨1⟩
      (.sequence [glideHome, halt]) {} opening.scheduler opening.world =
        ({}, gliding.scheduler, gliding.world) := by
    rw [Scheduler.startNext, if_neg room, drive]
    rfl
  have logged : opening.scheduler.nextLog opening.dispatcher.program ⟨1⟩
      (.sequence [glideHome, halt]) opening.world =
        [.does 0 ⟨⟨1⟩, .starts (.sequence [glideHome, halt]), opening.world⟩,
          .does 0 ⟨⟨1⟩, .executes glideHome, opening.world⟩] := by
    rw [Scheduler.nextLog, Scheduler.nextDeeds, if_neg room, deeds]
    rfl
  constructor
  · simp only [dispatch, Dispatcher.dispatch, running, if_true, matching_glider,
      Dispatcher.launchAll, there, Dispatcher.launch, Scheduler.launch, ready,
      Scheduler.start_eq_first, started, Scheduler.startAll_empty]
    rfl
  · simp only [dispatchLog, Dispatcher.dispatchLog, running, if_true, matching_glider,
      Dispatcher.launchAllLog, there, Scheduler.launchLog, ready, Scheduler.startLog_eq_first,
      started, logged, Scheduler.startAllLog_empty, List.append_nil]

theorem start_glider : gliderSession.start {} = gliding ∧
    gliderSession.startLog {} =
      [.does 0 ⟨⟨1⟩, .starts (.sequence [glideHome, halt]), opening.world⟩,
        .does 0 ⟨⟨1⟩, .executes glideHome, opening.world⟩] := by
  obtain ⟨started, logged⟩ := dispatch_glider
  have level : (gliding.dispatch .levelStart none).2 = gliding := rfl
  have levelLog : gliding.dispatchLog .levelStart none = [] := rfl
  have flushed : gliding.flush = gliding := rfl
  have flushLog : gliding.flushLog = [] := rfl
  constructor
  · rw [start_eq]
    change ((opening.dispatch .start none).2.dispatch .levelStart none).2.flush = gliding
    rw [started, level, flushed]
  · change opening.dispatchLog .start none ++
      (opening.dispatch .start none).2.dispatchLog .levelStart none ++
      ((opening.dispatch .start none).2.dispatch .levelStart none).2.flushLog = _
    rw [started, level, levelLog, flushLog, logged]
    rfl

theorem visit_glider (program : Program) {w : World} (running : w.running = true)
    (there : w.scene.contains ⟨1⟩ = true) (spent : w.effects.contains ⟨0⟩ = false) :
    Scheduler.visitLog program ⟨0, ⟨1⟩, [.sequence [halt]], .effect ⟨0⟩⟩ w =
      [.does 0 ⟨⟨1⟩, .executes halt, w⟩] := by
  have step : Task.step program ⟨1⟩ [.sequence [halt]] w = (.finish, w) := by
    rw [Task.step, if_pos (by simp [running, Task.mostFrames])]
    rfl
  have deeds : Task.deeds program ⟨1⟩ [.sequence [halt]] w = [⟨⟨1⟩, .executes halt, w⟩] := by
    rw [Task.deeds_halt step rfl]
    simp [Task.stepDeeds, running, Task.mostFrames, Frame.act?]
  simp only [Scheduler.visitLog, Scheduler.visitDeeds, there, Scheduler.pollDeeds, Task.wakes,
    spent, Bool.not_false, if_true, List.nil_append, deeds, List.map_cons, List.map_nil]

theorem over_glider {w : World} (alike : gliding.world.Alike w) :
    (w.stepEffects gliding.clock.step).effects.contains ⟨0⟩ = false := by
  have arrives : 1 ≤ Effect.glideShare (0 + gliding.clock.step) (Scalar.narrow 0.01) := by
    decide +kernel
  have records : w.effects.records =
      [{ id := ⟨0⟩, target := ⟨1⟩, effect := .glide .up ⟨0, 0, 0⟩ (Scalar.narrow 0.01) }] := by
    rw [alike.effects]
    rfl
  obtain ⟨o, found⟩ : ∃ o, w.scene.find? ⟨1⟩ = some o := by
    rw [alike.scene]
    exact ⟨_, rfl⟩
  simp only [World.stepEffects, Registry.step, records, Registry.stepAll, Registry.stepRecord,
    found, Effect.step, if_pos arrives]
  rfl

theorem tick_glider : ∃ w rest,
    gliding.tickLog 0.02 = .animates gliding.clock.step w ::
      .does 0 ⟨⟨1⟩, .executes halt, (w.stepEffects gliding.clock.step)⟩ :: rest ∧
    gliding.world.Alike w := by
  have untouched (id : ObjectId) :
      opening.dispatcher.program.matching (.collide "player") (some id) = [] := by
    have entries : opening.dispatcher.program.entries =
        [⟨⟨1⟩, ⟨.start, [], [glideHome, halt]⟩⟩] := rfl
    simp [Program.matching, entries, Trigger.accepts]
  have on : gliding.isRunning = true := rfl
  have running : (gliding.tick 0.02).isRunning = true := isRunning_tick_of_idle on rfl 0.02
  have advanced : gliding.tickLog 0.02 = (gliding.later 0.02).advanceLog (frameTime 0.02) := by
    have empty : gliding.inbox.toList = [] := rfl
    rw [tickLog, if_pos running, empty, handleToStopLog, handleToStop, List.nil_append]
  have steps : ((gliding.later 0.02).clock.accumulate
      (Scalar.narrow (frameTime 0.02))).1 = 1 := by decide +kernel
  obtain ⟨w, rest, log, alike, going⟩ := advanceLog_of_quiet steps rfl untouched rfl
  have same : gliding.world.Alike w := ⟨alike.scene, alike.effects⟩
  have there : (w.stepEffects gliding.clock.step).scene.contains ⟨1⟩ = true := by
    rw [Scene.contains_iff, (w.calm_stepEffects _).ids, same.scene]
    decide
  obtain ⟨others, worked⟩ : ∃ others, Scheduler.tickLog gliding.dispatcher.program
      gliding.scheduler (w.stepEffects gliding.clock.step) =
        .does 0 ⟨⟨1⟩, .executes halt, w.stepEffects gliding.clock.step⟩ :: others := by
    have going : (w.stepEffects gliding.clock.step).running = true := going
    have visited := visit_glider gliding.dispatcher.program going there (over_glider same)
    rw [Scheduler.tickLog, if_pos going]
    change ∃ others, Scheduler.visitLog _ ⟨0, ⟨1⟩, [.sequence [halt]], .effect ⟨0⟩⟩ _ ++ [] ++ _ = _
    rw [visited]
    exact ⟨_, rfl⟩
  refine ⟨w, others ++ rest, ?_, same⟩
  have log : (gliding.later 0.02).advanceLog (frameTime 0.02) =
      .animates gliding.clock.step w :: (Scheduler.tickLog gliding.dispatcher.program
        gliding.scheduler (w.stepEffects gliding.clock.step) ++ rest) := log
  rw [advanced, log, worked]
  rfl

/-- The glide lands in the one frame of this run, and the task goes on in the same frame. -/
theorem glider_lands :
    ∃ before d during d' rest,
      gliderSession.startLog {} ++ (gliderSession.start {}).playLog [.tick 0.02] =
        before ++ .does 0 d :: (during ++ .does 0 d' :: rest) ∧
      d.StartsGlide home ∧ (∃ dt w, .animates dt w ∈ during ∧ home.LandsIn dt w) ∧
      d'.world.effects.contains home.record = false ∧ home.Arrived d'.world.scene := by
  obtain ⟨started, startLog⟩ := start_glider
  obtain ⟨w, rest, tickLog, alike⟩ := tick_glider
  have one_run : (gliderSession.start {}).OneRun [.tick 0.02] := by
    rw [started]
    exact ⟨rfl, nofun, trivial⟩
  have takes_time : (0 : Float) < 0.01 := by decide +kernel
  have command : glideHome.command = .glide ⟨0, 0, 0⟩ 0.01 false := rfl
  obtain ⟨o, there⟩ : ∃ o, opening.world.scene.find? ⟨1⟩ = some o := ⟨_, rfl⟩
  have glides : Deed.StartsGlide ⟨⟨1⟩, .executes glideHome, opening.world⟩ home :=
    .intro ⟨1⟩ command takes_time there
  have log : gliderSession.startLog {} ++ (gliderSession.start {}).playLog [.tick 0.02] =
      [.does 0 ⟨⟨1⟩, .starts (.sequence [glideHome, halt]), opening.world⟩] ++
        .does 0 ⟨⟨1⟩, .executes glideHome, opening.world⟩ ::
          ([.animates gliding.clock.step w] ++
            .does 0 ⟨⟨1⟩, .executes halt, w.stepEffects gliding.clock.step⟩ :: rest) := by
    rw [startLog, started, playLog, playLog, ite_self, List.append_nil, actLog, tickLog]
    rfl
  have calm : ∀ x ∈ [Happening.animates gliding.clock.step w], ¬ x.Disturbs home.object := by
    simp only [List.mem_singleton, forall_eq]
    intro disturbs
    cases disturbs with
    | absent _ gone =>
      rw [alike.scene] at gone
      exact gone (by decide)
  have alone : ∀ x ∈ [Happening.animates gliding.clock.step w], ¬ x.Interferes home := by
    simp only [List.mem_singleton, forall_eq]
    intro interferes
    cases interferes with
    | animates _ there _ other =>
      rw [alike.effects] at there
      rw [List.mem_singleton.1 there] at other
      exact other rfl
  obtain ⟨-, run⟩ := glide_lands_first {} [.edit fun _ => glider] {} [.tick 0.02] one_run
  obtain ⟨-, waits, lands, arrives⟩ := run _ 0 _ _ home log glides
  have spent := waits _ (List.mem_append_right _ List.mem_cons_self)
  exact ⟨_, _, _, _, _, log, glides, lands _ _ rfl calm spent, spent, arrives _ _ _ rfl calm alone⟩

end Example

end Session
end BlockStage
