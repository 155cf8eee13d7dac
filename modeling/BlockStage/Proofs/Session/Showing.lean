import BlockStage.Proofs.Json.Lookup
import BlockStage.Proofs.Log.Passing
import BlockStage.Proofs.Run.Quiet

/-! The display of variables. A run tells which variable is to be shown with which number; whoever
puts these up, one after the other, has before him what the variables read. -/

namespace BlockStage

abbrev Hud := String → Option Float

def Notice.putUp (hud : Hud) : Notice → Hud
  | variableShown name value => Function.update hud name (some value)
  | _ => hud

def displayed (told : List Notice) : Hud := told.foldl Notice.putUp fun _ => none

theorem displayed_concat (told : List Notice) (n : Notice) :
    displayed (told ++ [n]) = n.putUp (displayed told) := List.foldl_concat ..

theorem displayed_map (values : List (String × Float)) (name : String) :
    displayed (values.map fun p => .variableShown p.1 p.2) name =
      (Named.ofList values).get? name := by
  rw [Named.get?_ofList]
  induction values using List.reverseRecOn with
  | nil => rfl
  | append_singleton rest p ih =>
    rw [List.map_append, List.map_singleton, displayed_concat, List.reverse_concat,
      Named.get?_cons, ← ih, Notice.putUp, Function.update_apply]

/-- Every variable stands on the display, and whatever stands there is what its name reads. -/
structure Mirrors (hud : Hud) (vars : Variables) : Prop where
  complete : ∀ name ∈ vars.values.map (·.1), ∃ value, hud name = some value
  exact : ∀ name value, hud name = some value → vars.get name = value

theorem Variables.get_set (v : Variables) (name : String) (value : Float) (other : String) :
    (v.set name value).get other = if other = name then value else v.get other := by
  rw [get, set, Named.get?_insert]
  split <;> rfl

namespace Mirrors

variable {hud : Hud} {vars : Variables}

theorem all (sorted : vars.values.Sorted) :
    Mirrors (displayed (vars.values.map fun p => .variableShown p.1 p.2)) vars := by
  have stands (name : String) : displayed (vars.values.map fun p => .variableShown p.1 p.2) name =
      vars.values.get? name := by
    rw [displayed_map, Named.ofList_of_sorted sorted]
  constructor
  · intro name known
    obtain ⟨p, hp, rfl⟩ := List.mem_map.1 known
    exact ⟨p.2, (stands p.1).trans (Named.get?_eq_some_of_mem sorted.nodup hp)⟩
  · intro name value shown
    rw [Variables.get, ← stands, shown, Option.getD_some]

theorem write (h : Mirrors hud vars) (name : String) (value : Float) :
    Mirrors (Function.update hud name (some value)) (vars.set name value) where
  complete other known := by
    by_cases same : other = name
    · exact ⟨value, by rw [same, Function.update_self]⟩
    · rw [Function.update_of_ne same]
      exact h.complete other (((Named.mem_names_insert ..).1 known).resolve_left same)
  exact other shown stands := by
    rw [Variables.get_set]
    by_cases same : other = name
    · rw [same, Function.update_self] at stands
      rw [if_pos same, Option.some.inj stands]
    · rw [Function.update_of_ne same] at stands
      rw [if_neg same, h.exact other shown stands]

theorem put (h : Mirrors hud vars) (name : String) :
    Mirrors (Function.update hud name (some (vars.get name))) vars where
  complete other known := by
    by_cases same : other = name
    · exact ⟨vars.get name, by rw [same, Function.update_self]⟩
    · rw [Function.update_of_ne same]
      exact h.complete other known
  exact other shown stands := by
    by_cases same : other = name
    · rw [same, Function.update_self] at stands
      rw [same, Option.some.inj stands]
    · rw [Function.update_of_ne same] at stands
      exact h.exact other shown stands

end Mirrors

/-! ### Writes to variables -/

/-- The display mirrors the variables, once what was told before and what nobody was told yet is put
up. -/
def World.Displayed (w : World) (before : List Notice) : Prop :=
  Mirrors (displayed (before ++ w.notices.toList)) w.vars

def World.KeepsDisplay (w w' : World) : Prop := ∀ before, w.Displayed before → w'.Displayed before

namespace World

variable {w w' w'' : World}

theorem KeepsDisplay.trans (first : KeepsDisplay w w') (second : KeepsDisplay w' w'') :
    KeepsDisplay w w'' :=
  fun before h => second before (first before h)

theorem KeepsDisplay.of_same (vars : w'.vars = w.vars) (notices : w'.notices = w.notices) :
    KeepsDisplay w w' := by
  intro before h
  rw [Displayed, vars, notices]
  exact h

theorem Quiet.keepsDisplay (h : w.Quiet w') : KeepsDisplay w w' := .of_same h.vars h.notices

theorem displayed_tell (w : World) (n : Notice) (before : List Notice) :
    displayed (before ++ (w.tell n).notices.toList) =
      n.putUp (displayed (before ++ w.notices.toList)) := by
  rw [tell, Queue.toList_push, ← List.append_assoc, displayed_concat]

theorem keepsDisplay_tell (w : World) {n : Notice} (silent : ∀ hud, n.putUp hud = hud) :
    KeepsDisplay w (w.tell n) := by
  intro before h
  rw [Displayed, displayed_tell, silent]
  exact h

theorem keepsDisplay_setVar (w : World) (name : String) (value : Float) :
    KeepsDisplay w (w.setVar name value) := by
  intro before h
  have told : w.setVar name value =
      { w with vars := w.vars.set name value }.tell (.variableShown name value) := by
    simp only [setVar, showVar, Variables.get_set, if_true]
  rw [Displayed, told, displayed_tell]
  exact h.write name value

theorem keepsDisplay_showVar (w : World) (name : String) : KeepsDisplay w (w.showVar name) := by
  intro before h
  rw [Displayed, showVar, displayed_tell, Notice.putUp]
  exact h.put name

theorem keepsDisplay_drain (w : World) (name : String) (amount : Float) (event : Event) :
    KeepsDisplay w (w.drain name amount event) := by
  have written : KeepsDisplay w (w.changeVar name (-amount)) := w.keepsDisplay_setVar name _
  unfold drain
  dsimp only
  split
  · exact written.trans (.of_same rfl rfl)
  · exact written

variable (owner : ObjectId) (w : World)

theorem keepsDisplay_speak (text : String) (seconds : Float32) :
    KeepsDisplay w (w.speak owner text seconds) := by
  unfold speak
  split
  · exact .of_same rfl rfl
  · exact w.keepsDisplay_tell fun _ => rfl

theorem keepsDisplay_spawnObject (make : ObjectId → SceneObject) :
    KeepsDisplay w (w.spawnObject make) :=
  (KeepsDisplay.of_same rfl rfl).trans (keepsDisplay_tell _ fun _ => rfl)

theorem keepsDisplay_duplicate : KeepsDisplay w (w.duplicate owner) := by
  unfold duplicate
  split
  · exact .of_same rfl rfl
  · exact (KeepsDisplay.of_same rfl rfl).trans (keepsDisplay_tell _ fun _ => rfl)

theorem keepsDisplay_removeObject : KeepsDisplay w (w.removeObject owner) := by
  unfold removeObject
  split
  · exact (KeepsDisplay.of_same rfl rfl).trans (keepsDisplay_tell _ fun _ => rfl)
  · exact .of_same rfl rfl

end World

/-- Every write to a variable is shown. -/
theorem Instruction.keepsDisplay_execute (i : Instruction) (owner : ObjectId) (program : Program)
    (w : World) : w.KeepsDisplay (i.execute owner program w).2 := by
  obtain ⟨opcode, arguments, kind, command, children, elseChildren⟩ := i
  cases command with
  | setVar name value => exact w.keepsDisplay_setVar name value
  | changeVar name amount => exact w.keepsDisplay_setVar name _
  | resetVar name => exact w.keepsDisplay_setVar name _
  | showVar name => exact w.keepsDisplay_showVar name
  | damage amount => exact w.keepsDisplay_drain "health" amount .healthZero
  | loseLife => exact w.keepsDisplay_drain "lives" 1 .livesZero
  | heal amount => exact w.keepsDisplay_setVar "health" _
  | addScore amount => exact w.keepsDisplay_setVar "score" _
  | collectItem =>
    have counted : w.KeepsDisplay (w.changeVar "coins" 1) := w.keepsDisplay_setVar "coins" _
    exact counted.trans (.of_same rfl rfl)
  | startTimer seconds =>
    have counted : w.KeepsDisplay { w with countdown := some seconds } := .of_same rfl rfl
    exact counted.trans (World.keepsDisplay_setVar _ "timer" _)
  | say text seconds => exact w.keepsDisplay_speak owner text seconds
  | playSound name => exact w.keepsDisplay_tell fun _ => rfl
  | playTone frequency seconds => exact w.keepsDisplay_tell fun _ => rfl
  | showMessage text seconds => exact w.keepsDisplay_tell fun _ => rfl
  | spawnObject shape position => exact w.keepsDisplay_spawnObject _
  | duplicate => exact w.keepsDisplay_duplicate owner
  | destroy => exact w.keepsDisplay_removeObject owner
  | broadcast text => exact .of_same rfl rfl
  | defeatEnemy => exact .of_same rfl rfl
  | _ => exact (quiet_execute _ owner program w id).keepsDisplay

theorem keptInRun_display : KeptInRun World.KeepsDisplay where
  refl _ := .of_same rfl rfl
  trans := .trans
  execute i owner program w := i.keepsDisplay_execute owner program w
  effects _ _ := .of_same rfl rfl
  aside _ _ _ _ _ := .of_same rfl rfl
  input _ _ := .of_same rfl rfl
  clock _ _ := .of_same rfl rfl
  scene _ _ := .of_same rfl rfl

/-! ### Runs -/

namespace Session

def drainedIn (s : Session) : List Action → List Notice
  | [] => []
  | a :: rest => s.drained a ++ (s.act a).drainedIn rest

variable {s : Session} {before : List Notice}

theorem displayed_opened (s : Session) (settings : Settings) :
    (s.opened settings).world.Displayed [] := by
  have told : (s.opened settings).world.notices.toList =
      Variables.initial.values.map fun p => .variableShown p.1 p.2 := by
    simp only [opened, World.showAllVars_eq, Queue.toList_pushAll]
    rfl
  have vars : (s.opened settings).world.vars = .initial := by
    simp only [opened, World.showAllVars_eq]
    rfl
  rw [World.Displayed, List.nil_append, told, vars]
  exact .all (Named.sorted_ofList _)

theorem displayed_after {a : Action} (running : s.isRunning = true)
    (other : ∀ settings, a ≠ .start settings) (h : s.world.Displayed before) :
    (s.after a).world.Displayed (before ++ s.drained a) ∧
      ∀ x ∈ s.actLog a, x.world.Displayed before := by
  by_cases drains : a = .drainNotices
  · subst drains
    have after : s.after .drainNotices = s.drainNotices.2 := after_of_running running
    refine ⟨?_, fun x hx => absurd hx List.not_mem_nil⟩
    rw [after]
    change Mirrors (displayed (before ++ s.world.notices.toList ++ [])) s.world.vars
    rw [List.append_nil]
    exact h
  · have nothing : s.drained a = [] := by
      cases a <;> first | rfl | contradiction
    have passes := keptInRun_display.passes (does_after running other) drains
    rw [nothing, List.append_nil]
    exact ⟨passes.worked before h, fun x hx => passes.along x hx before h⟩

theorem told_afterAll {P : World → List Notice → Prop} {Q : Action → Prop}
    (step : ∀ {s : Session} {a : Action} {before : List Notice}, s.isRunning = true →
      (∀ settings, a ≠ .start settings) → Q a → P s.world before →
      P (s.after a).world (before ++ s.drained a) ∧ ∀ x ∈ s.actLog a, P x.world before)
    {actions : List Action} (lasts : s.OneRun actions) (fits : ∀ a ∈ actions, Q a)
    (h : P s.world before) :
    P (s.afterAll actions).world (before ++ s.drainedIn actions) ∧
      ∀ earlier a later, actions = earlier ++ a :: later →
        ∀ x ∈ (s.afterAll earlier).actLog a, P x.world (before ++ s.drainedIn earlier) := by
  induction actions generalizing s before with
  | nil => simpa [afterAll, drainedIn] using h
  | cons a rest ih =>
    obtain ⟨running, other, lasts⟩ := lasts
    rw [List.forall_mem_cons] at fits
    obtain ⟨now, during⟩ := step running other fits.1 h
    by_cases still : (s.act a).isRunning = true
    · rw [after_of_running still] at now
      obtain ⟨last, along⟩ := ih lasts fits.2 now
      rw [afterAll, if_pos still, drainedIn, ← List.append_assoc]
      refine ⟨last, fun earlier b later split x hx => ?_⟩
      cases earlier with
      | nil =>
        obtain ⟨rfl, -⟩ := List.cons.inj split
        exact (List.append_nil before).symm ▸ during x hx
      | cons _ earlier =>
        obtain ⟨rfl, tail⟩ := List.cons.inj split
        rw [afterAll, if_pos still] at hx
        rw [drainedIn, ← List.append_assoc]
        exact along earlier b later tail x hx
    · -- Nothing follows the action that ends the run.
      obtain rfl : rest = [] := by
        cases rest with
        | nil => rfl
        | cons b rest => exact absurd lasts.1 still
      rw [afterAll, if_neg still, drainedIn, drainedIn, List.append_nil]
      refine ⟨now, fun earlier b later split x hx => ?_⟩
      obtain ⟨rfl, split⟩ | ⟨_, -, split⟩ := List.cons_eq_append_iff.1 split
      · obtain ⟨rfl, -⟩ := List.cons.inj split
        exact (List.append_nil before).symm ▸ during x hx
      · simp at split

theorem displayed_afterAll {actions : List Action} (lasts : s.OneRun actions)
    (h : s.world.Displayed before) :
    (s.afterAll actions).world.Displayed (before ++ s.drainedIn actions) ∧
      ∀ earlier a later, actions = earlier ++ a :: later →
        ∀ x ∈ (s.afterAll earlier).actLog a, x.world.Displayed (before ++ s.drainedIn earlier) :=
  told_afterAll (P := World.Displayed) (Q := fun _ => True)
    (fun running other _ => displayed_after running other) lasts (fun _ _ => trivial) h

/-- The display never drifts. At any time of a run all that was told since its start, drained or
still pending, makes up a display on which every variable stands, and on which whatever stands is
what its name reads. That holds between any two actions and at every happening, before and after it;
and each part of the work keeps it, in whatever world it is done. -/
theorem display_never_drifts (s : Session) (settings : Settings) (actions : List Action)
    (one_run : (s.start settings).OneRun actions) :
    let run := s.start settings
    (run.afterAll actions).world.Displayed (run.drainedIn actions) ∧
    (∀ x ∈ s.startLog settings, x.world.Displayed [] ∧ x.outcome.Displayed []) ∧
    (∀ earlier a later, actions = earlier ++ a :: later → ∀ x ∈ (run.afterAll earlier).actLog a,
      x.world.Displayed (run.drainedIn earlier) ∧ x.outcome.Displayed (run.drainedIn earlier)) ∧
    ∀ (w : World) (before : List Notice), w.Displayed before →
      (∀ (i : Instruction) owner program, (i.execute owner program w).2.Displayed before) ∧
      (∀ (frame : Frame) owner, (frame.advance owner w).2.Displayed before) ∧
      (∀ dt, (w.advanceCountdown dt).Displayed before) ∧
      (∀ program (tasks : Scheduler), (tasks.tick program w).2.Displayed before) ∧
      ∀ (d : Dispatcher) event target tasks,
        (d.dispatch event target tasks w).2.2.Displayed before := by
  intro run
  have kept := keptInRun_display
  have opened := displayed_opened s settings
  have start := kept.passes_start s settings
  obtain ⟨last, along⟩ := displayed_afterAll one_run (start.worked [] opened)
  refine ⟨last, fun x hx => ?_, fun earlier a later split x hx => ?_, fun w before h => ?_⟩
  · have now := start.along x hx [] opened
    exact ⟨now, kept.outcome x [] now⟩
  · have now := along earlier a later split x hx
    exact ⟨now, kept.outcome x _ now⟩
  · exact ⟨fun i owner program => kept.execute i owner program w before h,
      fun frame owner => kept.toKept.advance owner frame w before h,
      fun dt => kept.advanceCountdown w dt before h,
      fun program tasks => kept.toKept.tick program tasks w before h,
      fun d event target tasks => kept.toKept.dispatch d event target tasks w before h⟩

section Example

def scoreScene : Scene :=
  ({} : Scene).allocate.2.spawn
    { id := ⟨1⟩, scripts := [⟨1, 0, 0, [⟨1, "onClick", [], [], []⟩, ⟨2, "addScore", [], [], []⟩]⟩] }

def scoring : Instruction :=
  ⟨.addScore, [("amount", .number 10)], .command, .addScore 10, [], []⟩

theorem drive_scoring (program : Program) (q : Queue Frame) {w : World}
    (running : w.running = true) :
    Task.drive program ⟨1⟩ [.sequence [scoring]] q w = ⟨none, q, w.changeVar "score" 10⟩ := by
  have scores : Task.step program ⟨1⟩ [.sequence [scoring]] w =
      (.go [.sequence []], w.changeVar "score" 10) := by
    rw [Task.step, if_pos (by simp [running, Task.mostFrames])]
    rfl
  have ends : Task.step program ⟨1⟩ [.sequence []] (w.changeVar "score" 10) =
      (.go [], w.changeVar "score" 10) := by
    have still : (w.changeVar "score" 10).running = true := running
    rw [Task.step, if_pos (by simp [still, Task.mostFrames])]
    rfl
  rw [Task.drive_go scores, Task.drive_go ends, Task.drive_finish rfl]

def scoreRun : Session := (ofScene {} scoreScene).start {}

def scored : Session := { scoreRun.drainNotices.2 with
  scheduler := ⟨[], 1⟩
  world := scoreRun.drainNotices.2.world.changeVar "score" 10 }

theorem act_scoring : scoreRun.drainNotices.2.act (.dispatch .click (some ⟨1⟩)) = scored := by
  have matching : scoreRun.drainNotices.2.dispatcher.program.matching .click (some ⟨1⟩) =
      [⟨⟨1⟩, ⟨.click, [], [scoring]⟩⟩] := rfl
  have running : scoreRun.drainNotices.2.dispatcher.state = .running := rfl
  have on : scoreRun.drainNotices.2.world.running = true := rfl
  have there : scoreRun.drainNotices.2.world.scene.contains ⟨1⟩ = true := rfl
  have room : scoreRun.drainNotices.2.scheduler.tasks.length <
      scoreRun.drainNotices.2.world.config.mostTasks := by decide
  rw [act, dispatch, Dispatcher.dispatch_of_drive running matching (drive_scoring _ {} on)
    (List.cons_ne_nil _ _) on there room]
  rfl

/-- The score is on display, though the first display of it was drained before. -/
theorem score_on_display :
    let actions := [.drainNotices, .dispatch .click (some ⟨1⟩), .stop]
    scoreRun.OneRun actions ∧
      displayed (scoreRun.drainedIn actions ++
        (scoreRun.afterAll actions).world.notices.toList) "score" = some 10 := by
  intro actions
  have one_run : scoreRun.OneRun actions := by
    refine ⟨rfl, nofun, rfl, nofun, ?_⟩
    rw [show scoreRun.act .drainNotices = scoreRun.drainNotices.2 from rfl, act_scoring]
    exact ⟨rfl, nofun, trivial⟩
  have ended : scoreRun.afterAll actions = scored := by
    have running : (scoreRun.act .drainNotices).isRunning = true := rfl
    rw [afterAll, if_pos running, afterAll,
      show scoreRun.act .drainNotices = scoreRun.drainNotices.2 from rfl, act_scoring]
    rfl
  obtain ⟨mirrors, -⟩ := display_never_drifts (ofScene {} scoreScene) {} actions one_run
  have vars : scored.world.vars = Variables.initial.change "score" 10 := rfl
  change (scoreRun.afterAll actions).world.Displayed (scoreRun.drainedIn actions) at mirrors
  rw [ended] at mirrors ⊢
  obtain ⟨value, stands⟩ := mirrors.complete "score" (by rw [vars]; decide)
  have reads := mirrors.exact "score" value stands
  rw [vars] at reads
  refine ⟨one_run, stands.trans ?_⟩
  rw [← reads]
  rfl

end Example

end Session
end BlockStage
