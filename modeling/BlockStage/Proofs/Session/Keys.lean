import BlockStage.Proofs.Events.Delivery
import BlockStage.Proofs.Script.Keys
import BlockStage.Proofs.Session.Story
import BlockStage.Proofs.Text.Labels

/-! Keys go by their labels, whichever way they come in: in an event, in a hat, in a condition or in
a binding. -/

namespace BlockStage

open Palette (standard)

theorem Program.mem_ofScene {palette : Palette} {scene : Scene} {o : SceneObject} {stack : Stack}
    {script : Script} (there : o ∈ scene.objects) (own : stack ∈ o.scripts)
    (compiled : stack.compile? palette = some script) :
    ⟨o.id, script⟩ ∈ (ofScene palette scene).entries :=
  List.mem_flatMap.2 ⟨o, there, List.mem_map_of_mem (List.mem_filterMap.2 ⟨stack, own, compiled⟩)⟩

theorem Dispatcher.takeTurn_key (d : Dispatcher) {entry : Program.Entry} {wanted : String}
    (waits : entry.script.trigger = .key wanted) (label : String) (count : Nat)
    (tasks : Scheduler) (w : World) :
    d.takeTurn (.key label) none (count, tasks, w) entry =
      if wanted = label ∧ entry.owner ∈ w.scene.ids then
        (count + 1, tasks.launch d.program entry.owner entry.script.body w)
      else (count, tasks, w) := by
  simp only [takeTurn, Program.Entry.startedBy, waits, Trigger.accepts, Bool.true_and,
    decide_eq_true_eq]

namespace Session

variable {s : Session}

/-! ### The program of a run -/

theorem continues_handle {event : InputEvent} (still : (s.handle event).isRunning = true) :
    Continues s (s.handle event) := by
  rcases s.proceeds_handle event with goesOn | ⟨last, -, stopped⟩
  · exact goesOn
  · rw [stopped, isRunning_stop] at still
    contradiction

theorem continues_handleToStop (events : List InputEvent) (s : Session) :
    Continues s (s.handleToStop events) := by
  induction events generalizing s with
  | nil => exact .refl s
  | cons event rest ih =>
    rw [handleToStop]
    split
    · exact (continues_handle ‹_›).trans (ih _)
    · exact .refl s

theorem continues_tickToStop (dt : Float32) : Continues s (s.tickToStop dt) := by
  have later : Continues s (s.later dt) := ⟨rfl, rfl, rfl, rfl, rfl, rfl⟩
  have handled := later.trans (continues_handleToStop s.inbox.toList (s.later dt))
  unfold tickToStop
  dsimp only
  split
  · exact handled.trans (continues_advance _ _)
  · exact handled

theorem Does.continues {s' : Session} {a : Action} {log : Log} (did : s.Does a log s') :
    Continues s s' := by
  cases did with
  | frame dt => exact continues_tickToStop dt
  | dispatches event target => exact s.continues_dispatch event target
  | removes id =>
    have removed := s.world.evolves_removeObject id
    exact ⟨rfl, removed.running, rfl, rfl, removed.config, rfl⟩
  | loads | stops => exact .refl s
  | scripts | edits | receives | drains | resizes => exact ⟨rfl, rfl, rfl, rfl, rfl, rfl⟩

theorem continues_afterAll {actions : List Action} (lasts : s.OneRun actions) :
    Continues s (s.afterAll actions) :=
  forall_afterAll Continues.refl Continues.trans Does.continues lasts

/-! ### A key is pressed -/

theorem handle_key (s : Session) {k : String} (goesOn : keyLabel k ≠ stopKey) :
    s.handle (.ofKeyDown k) =
      ((s.modifyInput (·.press (keyLabel k))).dispatch (.key (keyLabel k)) none).2 := by
  rw [InputEvent.ofKeyDown, handle, keyLabel_keyLabel, press, if_neg goesOn]

theorem running_handle_key (running : s.isRunning = true) {k : String}
    (goesOn : keyLabel k ≠ stopKey) : (s.handle (.ofKeyDown k)).isRunning = true := by
  rw [s.handle_key goesOn]
  exact ((s.continues_modifyInput _).trans (continues_dispatch _ _ _)).isRunning.trans running

theorem inbox_receive (event : InputEvent) (idle : s.inbox.toList = []) :
    (s.receive event).inbox.toList = [event] := by
  rw [receive, Queue.toList_push, idle, List.nil_append]

theorem tick_key (running : s.isRunning = true) (idle : s.inbox.toList = []) {k : String}
    (goesOn : keyLabel k ≠ stopKey) (dt : Float32) :
    (s.receive (.ofKeyDown k)).tick dt =
      (((s.later dt).modifyInput (·.press (keyLabel k))).dispatch (.key (keyLabel k))
        none).2.advance (frameTime dt) := by
  have waiting := inbox_receive (.ofKeyDown k) idle
  have received : (s.receive (.ofKeyDown k)).isRunning = true := running
  have still := running_handle_key (s := s.later dt) running goesOn
  have worked : (s.receive (.ofKeyDown k)).tick dt =
      let handled := handleAll (s.receive (.ofKeyDown k)).inbox.toList (s.later dt)
      if handled.isRunning then handled.advance (frameTime dt) else handled := by
    rw [tick, if_pos received]
    rfl
  have handled : handleAll [.ofKeyDown k] (s.later dt) = (s.later dt).handle (.ofKeyDown k) := by
    simp only [handleAll, ite_self]
  rw [worked, waiting, handled, handle_key _ goesOn]
  rw [handle_key _ goesOn] at still
  exact if_pos still

theorem tickStory_key (running : s.isRunning = true) (idle : s.inbox.toList = []) {k : String}
    (goesOn : keyLabel k ≠ stopKey) (dt : Float32) :
    ∃ rest, (s.receive (.ofKeyDown k)).tickStory dt =
      .hears (.ofKeyDown k) :: (((s.later dt).handleLog (.ofKeyDown k)).map .sees ++ rest) := by
  have waiting := inbox_receive (.ofKeyDown k) idle
  have still := running_handle_key (s := s.later dt) running goesOn
  rw [tickStory, waiting, handleToStopStory, handleToStopStory,
    show (s.receive (.ofKeyDown k)).later dt = s.later dt from rfl, if_pos still, List.append_nil,
    handleStory, List.cons_append]
  exact ⟨_, rfl⟩

theorem holds_keyPressed {w : World} {heard : List InputEvent} (h : w.input.Follows heard)
    (r : String) (owner : ObjectId) :
    ((Condition.keyPressed (keyLabel r)).holds owner w).1 = true ↔ IsDown (keyLabel r) heard :=
  h.isHeld_iff (keyLabel r)

/-- All ways that a key takes agree on its label. If nothing but a key is waiting in a run, and it
is not the one that stops the run, then the next frame gives each script of the run a turn, and
those that wait for the key are launched just if the labels are the same and their object is there.
From then on a compiled condition holds as long as no key with the label is released; in general,
conditions and bindings take a key for held just while a key with its label is down. -/
theorem key_paths_agree (config : Config) (past : List Action) (settings : Settings)
    (actions : List Action)
    (one_run : (((ofConfig config).actAll past).start settings).OneRun actions) :
    let s := (ofConfig config).actAll past
    let now := (s.start settings).afterAll actions
    let story := s.runStory settings actions
    story.filterMap Beat.seen? = s.startLog settings ++ (s.start settings).playLog actions ∧
    (now.isRunning = true → now.inbox.toList = [] → ∀ (k : String) (dt : Float32),
      keyLabel k ≠ stopKey →
      let pressed := (now.later dt).modifyInput (·.press (keyLabel k))
      let d := pressed.dispatcher
      let event := Event.key (keyLabel k)
      (now.receive (.ofKeyDown k)).tick dt =
        (pressed.dispatch event none).2.advance (frameTime dt) ∧
      (∃ rest, (now.receive (.ofKeyDown k)).tickStory dt = .hears (.ofKeyDown k) :: rest) ∧
      d.dispatch event none pressed.scheduler pressed.world =
        d.program.entries.foldl (d.takeTurn event none) (0, pressed.scheduler, pressed.world) ∧
      ∀ o ∈ s.savedScene.objects, ∀ stack ∈ o.scripts, ∀ r, stack.WaitsForKey r →
        ∃ script, stack.compile? standard = some script ∧ ⟨o.id, script⟩ ∈ d.program.entries ∧
          ∀ count tasks w, d.takeTurn event none (count, tasks, w) ⟨o.id, script⟩ =
            if keyLabel r = keyLabel k ∧ o.id ∈ w.scene.ids then
              (count + 1, tasks.launch d.program o.id script.body w)
            else (count, tasks, w)) ∧
    (∀ (b : Block) r, b.AsksKey r → ∃ i, b.compile? standard = some i ∧
      i.command.condition? = some (.keyPressed (keyLabel r))) ∧
    (∀ before k during x after,
      story = before ++ .hears (.ofKeyDown k) :: (during ++ .sees x :: after) →
      (∀ u, .hears (.keyUp u) ∈ during → keyLabel u ≠ keyLabel k) →
      ∀ r owner, keyLabel r = keyLabel k →
        ((Condition.keyPressed (keyLabel r)).holds owner x.world).1 = true) ∧
    (∀ before x after, story = before ++ .sees x :: after → ∀ r owner,
      ((Condition.keyPressed (keyLabel r)).holds owner x.world).1 = true ↔
        IsDown (keyLabel r) (Story.heard before)) ∧
    (∀ before intent after, story = before ++ .steers intent :: after →
      intent.Obeys settings.keys (Story.heard before)) ∧
    (∀ r owner, ((Condition.keyPressed (keyLabel r)).holds owner now.world).1 = true ↔
      IsDown (keyLabel r) story.heard) ∧
    now.intent.Obeys settings.keys story.heard := by
  intro s now story
  have told : Tells settings.keys [] story now.world := tells_run one_run
  have ended : now.world.input.Follows story.heard := by
    have follows := told.follows
    rwa [List.nil_append] at follows
  have settled : Settled s := settled_actAll (settled_ofConfig config) past
  have seen {before : Story} {x : Happening} {after : Story}
      (split : story = before ++ .sees x :: after) (r : String) (owner : ObjectId) :
      ((Condition.keyPressed (keyLabel r)).holds owner x.world).1 = true ↔
        IsDown (keyLabel r) (Story.heard before) :=
    holds_keyPressed (told.fits.at_beat split) r owner
  refine ⟨s.seen_runStory settings actions, fun running idle k dt goesOn => ?_,
    fun b r => Block.compile?_of_asksKey,
    fun before k during x after split unreleased r owner same => ?_,
    fun before x after split r owner => seen split r owner,
    fun before intent after split => told.fits.at_beat split,
    fun r owner => holds_keyPressed ended r owner, ?_⟩
  · intro pressed d event
    refine ⟨tick_key running idle goesOn dt, ?_, ?_, fun o there stack own r waits => ?_⟩
    · obtain ⟨rest, told⟩ := tickStory_key running idle goesOn dt
      exact ⟨_, told⟩
    · refine d.dispatch_eq_foldl event none ?_ pressed.scheduler pressed.world
      simp only [isRunning, Bool.and_eq_true, decide_eq_true_eq] at running
      exact running.2
    · obtain ⟨script, compiled, trigger⟩ := Stack.compile?_of_waitsForKey waits
      have program : now.dispatcher.program = .ofScene standard s.savedScene :=
        (continues_afterAll one_run).program.trans (settled.start settings).2.2
      refine ⟨script, compiled, ?_, d.takeTurn_key trigger (keyLabel k)⟩
      have listed := Program.mem_ofScene there own compiled
      rwa [← program] at listed
  · have later : story = (before ++ .hears (.ofKeyDown k) :: during) ++ .sees x :: after := by
      rw [split, List.append_assoc, List.cons_append]
    refine (seen later r owner).2 ?_
    refine ⟨Story.heard before, keyLabel k, Story.heard during, ?_, ?_, fun u released => ?_⟩
    · rw [Story.heard_append]
      rfl
    · rw [keyLabel_keyLabel, same]
    · rw [same]
      exact unreleased u (Story.hears_of_mem_heard released)
  · have bound : now.settings.keys = settings.keys.map keyLabel :=
      (congrArg Settings.keys (settings_afterAll one_run)).trans (s.keys_start settings)
    rw [intent, bound]
    exact MoveIntent.obeys_ofKeys ended settings.keys

section Example

def keyedScript : Stack where
  id := 1
  x := 0
  y := 0
  blocks := [⟨1, "onKey", [("key", .text " W")], [], []⟩, ⟨2, "addScore", [], [], []⟩]

def keyed : Scene := ({} : Scene).allocate.2.spawn { id := ⟨1⟩, scripts := [keyedScript] }

def keyedSession : Session := (ofConfig {}).actAll [.edit fun _ => keyed]

def keyedSettings : Settings := { keys := { forward := "w " } }

def pressing : List Action := [.receive (.ofKeyDown "W"), .tick 0.02]

theorem keyLabel_W : keyLabel "W" = "w" ∧ keyLabel " W" = "w" := by decide +kernel

def keyedScore : Instruction :=
  ⟨.addScore, [("amount", .number 10)], .command, .addScore 10, [], []⟩

theorem handleLog_keyed {s : Session} (running : s.isRunning = true)
    (program : s.dispatcher.program = .ofScene standard keyed)
    (there : s.world.scene.contains ⟨1⟩ = true)
    (room : ¬ s.world.config.mostTasks ≤ s.scheduler.tasks.length) :
    ∃ x rest, s.handleLog (.ofKeyDown "W") = x :: rest := by
  obtain ⟨on, state⟩ : s.world.running = true ∧ s.dispatcher.state = .running := by
    simpa [isRunning] using running
  have matching : s.dispatcher.program.matching (.key "w") none =
      [⟨⟨1⟩, ⟨.key "w", [("key", .text "w")], [keyedScore]⟩⟩] := by
    rw [program]
    rfl
  have small : keyLabel "w" = "w" := by rw [← keyLabel_W.1, keyLabel_keyLabel]
  have goesOn : "w" ≠ stopKey := by decide
  simp only [handleLog, InputEvent.ofKeyDown, keyLabel_W.1, small, if_neg goesOn, dispatchLog,
    Dispatcher.dispatchLog, modifyInput, state, if_true, matching, Dispatcher.launchAllLog, there,
    Scheduler.launchLog, on, List.isEmpty_cons, Bool.not_false, Bool.and_self,
    Scheduler.startLog_eq_first, Scheduler.nextLog, Scheduler.nextDeeds, if_neg room,
    List.map_cons, List.cons_append]
  exact ⟨_, _, rfl⟩

/-- The script that waits for the key under one text is launched by the key under another, and a
condition on it under a third one holds from then on. -/
theorem keyed_paths_agree :
    let run := keyedSession.start keyedSettings
    let pressed := (run.later 0.02).modifyInput (·.press (keyLabel "W"))
    run.OneRun pressing ∧
    (∃ script, ⟨⟨1⟩, script⟩ ∈ pressed.dispatcher.program.entries ∧
      ∀ count tasks w, ⟨1⟩ ∈ w.scene.ids →
        pressed.dispatcher.takeTurn (.key (keyLabel "W")) none (count, tasks, w) ⟨⟨1⟩, script⟩ =
          (count + 1, tasks.launch pressed.dispatcher.program ⟨1⟩ script.body w)) ∧
    ∃ x rest, keyedSession.runStory keyedSettings pressing =
        .hears (.ofKeyDown "W") :: .sees x :: rest ∧
      ((Condition.keyPressed (keyLabel " W")).holds ⟨1⟩ x.world).1 = true := by
  intro run pressed
  have one_run : run.OneRun pressing := ⟨rfl, nofun, rfl, nofun, trivial⟩
  have same : keyLabel " W" = keyLabel "W" := keyLabel_W.2.trans keyLabel_W.1.symm
  have goesOn : keyLabel "W" ≠ stopKey := by rw [keyLabel_W.1]; decide
  obtain ⟨-, launches, -⟩ := key_paths_agree {} [.edit fun _ => keyed] keyedSettings [] trivial
  obtain ⟨-, -, -, turns⟩ := launches rfl rfl "W" 0.02 goesOn
  obtain ⟨script, -, listed, turn⟩ := turns { id := ⟨1⟩, scripts := [keyedScript] }
    List.mem_cons_self keyedScript List.mem_cons_self " W" ⟨_, _, rfl, rfl, rfl⟩
  have story : ∃ x rest, keyedSession.runStory keyedSettings pressing =
      .hears (.ofKeyDown "W") :: .sees x :: rest := by
    obtain ⟨x, log, logged⟩ := handleLog_keyed (s := run.later 0.02) rfl rfl rfl (by decide)
    obtain ⟨rest, told⟩ := tickStory_key (s := run) rfl rfl goesOn 0.02
    rw [logged] at told
    have played : keyedSession.runStory keyedSettings pressing =
        (run.receive (.ofKeyDown "W")).tickStory 0.02 ++
          if ((run.receive (.ofKeyDown "W")).tick 0.02).isRunning then [] else [] := rfl
    rw [played, ite_self, List.append_nil, told]
    exact ⟨x, _, rfl⟩
  obtain ⟨x, rest, told⟩ := story
  refine ⟨one_run, ⟨script, listed, fun count tasks w there => ?_⟩, x, rest, told, ?_⟩
  · exact (turn count tasks w).trans (if_pos ⟨same, there⟩)
  · obtain ⟨-, -, -, holds, -⟩ := key_paths_agree {} [.edit fun _ => keyed] keyedSettings pressing
      one_run
    exact holds [] "W" [] x rest told nofun " W" ⟨1⟩ same

end Example

end Session
end BlockStage
