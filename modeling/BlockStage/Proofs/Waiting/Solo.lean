import BlockStage.Proofs.Run.Turns
import BlockStage.Proofs.Structured.Refinement
import BlockStage.Proofs.Waiting.Padding

/-! A task that has a scheduler to itself, tick by tick under any clock. Its ticks follow one way,
cut at its rests; so waits put into its code move what it does to later ticks and change nothing of
it. -/

namespace BlockStage

theorem World.withNow_withNow (w : World) (time time' : Float) :
    (w.withNow time).withNow time' = w.withNow time' := rfl

namespace Scheduler

variable (program : Program)

theorem start_alone {owner : ObjectId} {frame : Frame} {w : World}
    (room : 0 < w.config.mostTasks)
    (spawned : (Task.drive program owner [frame] {} w).spawned = {}) :
    start program owner frame {} w =
      let halt := Task.drive program owner [frame] {} w
      (⟨(halt.suspended.map fun (frames, wake) => Task.mk 0 owner frames wake).toList, 1⟩,
        halt.world) := by
  simp only [start_eq_first, startNext, List.length_nil, Nat.not_le.2 room, if_false, spawned,
    startAll_empty]
  cases (Task.drive program owner [frame] {} w).suspended <;> rfl

theorem start_full {owner : ObjectId} {frame : Frame} {s : Scheduler} {w : World}
    (full : w.config.mostTasks ≤ s.tasks.length) : start program owner frame s w = (s, w) := by
  simp only [start_eq_first, startNext, full, if_true, startAll_empty]

theorem tick_nil {s : Scheduler} (h : s.tasks = []) (w : World) :
    (tick program s w).1.tasks = [] ∧ (tick program s w).2 = w := by
  by_cases running : w.running = true
  · rw [tick_eq program s running, h]
    exact ⟨rfl, rfl⟩
  · rw [tick, if_neg running]
    exact ⟨rfl, rfl⟩

theorem tick_single {s : Scheduler} {t : Task} (h : s.tasks = [t]) {w w' : World}
    {kept : Option Task} (visited : visit program t w = (kept, {}, w'))
    (running : w.running = true) :
    (tick program s w).1.tasks = kept.toList ∧ (tick program s w).2 = w' := by
  rw [tick_eq program s running, h]
  simp only [visitAll, visited, List.append_nil]
  exact ⟨rfl, rfl⟩

variable (t : Task) (w : World) {seconds : Float}

theorem visit_early (present : t.owner ∈ w.scene.ids) (wake : t.wake = .time seconds)
    (early : Task.isDue w seconds = false) : visit program t w = (some t, {}, w) := by
  rw [visit, if_pos ((w.scene.contains_iff t.owner).2 present)]
  simp only [Task.wakes, wake, early]
  rw [← wake]

theorem visit_due (present : t.owner ∈ w.scene.ids) (wake : t.wake = .time seconds)
    (due : Task.isDue w seconds = true) :
    visit program t w =
      let halt := Task.drive program t.owner t.frames {} w
      (halt.suspended.map fun (frames, wake) => { t with frames, wake }, halt.spawned,
        halt.world) := by
  rw [visit, if_pos ((w.scene.contains_iff t.owner).2 present)]
  simp only [Task.wakes, wake, due]

end Scheduler

/-- A body that runs alone. At tick `n` the clock shows `clock n`. -/
structure Solo where
  program : Program
  owner : ObjectId
  body : List Instruction
  world : World
  clock : Nat → Float

namespace Solo

open BlockStage.Task

def run (x : Solo) : Nat → Scheduler × World
  | 0 => Scheduler.launch x.program x.owner x.body {} x.world
  | n + 1 => Scheduler.tick x.program (x.run n).1 ((x.run n).2.withNow (x.clock n))

/-- The first drive is that of the launch; a tick drives a task that is due. -/
inductive Drives (x : Solo) : Nat → List Frame → World → Prop
  | launch : x.Drives 0 [.sequence x.body] x.world
  | tick {n : Nat} {t : Task} (waits : t ∈ (x.run n).1.tasks)
      (due : (t.wakes ((x.run n).2.withNow (x.clock n))).1 = true) :
      x.Drives (n + 1) t.frames ((x.run n).2.withNow (x.clock n))

def StaysLow (x : Solo) : Prop :=
  ∀ n frames w, x.Drives n frames w → Structured.Fits x.program x.owner frames w

def ClockSuffices (x : Solo) : Prop :=
  ∀ n, ∀ t ∈ (x.run n).1.tasks, ∀ seconds, t.wake = .time seconds →
    ∃ m, n ≤ m ∧ seconds ≤ x.clock m + clockTolerance

def Over (x : Solo) (n : Nat) : Prop := (x.run n).1.tasks = []

variable {x : Solo} {n : Nat}

theorem Over.stays (ended : x.Over n) (k : Nat) :
    x.Over (n + k) ∧ ∃ time, (x.run (n + k)).2 = (x.run n).2.withNow time := by
  induction k with
  | zero => exact ⟨ended, _, rfl⟩
  | succ k ih =>
    obtain ⟨ended', time, world⟩ := ih
    obtain ⟨tasks, same⟩ := Scheduler.tick_nil x.program ended'
      ((x.run (n + k)).2.withNow (x.clock (n + k)))
    exact ⟨tasks, x.clock (n + k), same.trans (by rw [world, World.withNow_withNow])⟩

/-! ### Launch and ticks -/

structure Started (x : Solo) : Prop where
  running : x.world.running = true
  present : x.owner ∈ x.world.scene.ids
  room : 0 < x.world.config.mostTasks

def origin (x : Solo) : List Frame × World := ([.sequence x.body], x.world)

theorem plain_origin (plain : Plain x.program x.owner x.body) :
    PlainStack x.program x.owner x.origin.1 := by
  intro f hf
  rw [List.mem_singleton.1 hf]
  exact plain

def Holds (x : Solo) (n : Nat) (halt : Halt) : Prop :=
  (x.run n).1.tasks =
      (halt.suspended.map fun (frames, wake) => Task.mk 0 x.owner frames wake).toList ∧
    (x.run n).2 = halt.world

theorem spawned_of_plain {program : Program} {owner : ObjectId} {frames : List Frame}
    (plain : PlainStack program owner frames) (w : World) :
    (drive program owner frames {} w).spawned = {} := by
  obtain ⟨last, w₁, -, ⟨_, _, _, -, eq⟩ | ⟨_, -, eq⟩⟩ := drive_plain (w := w) plain {} <;> rw [eq]

theorem holds_launch (started : x.Started) (plain : Plain x.program x.owner x.body) :
    x.Holds 0 (drive x.program x.owner [.sequence x.body] {} x.world) := by
  have there := (x.world.scene.contains_iff x.owner).2 started.present
  cases empty : x.body.isEmpty with
  | true =>
    have pop : step x.program x.owner [.sequence x.body] x.world = (.go [], x.world) := by
      rw [List.isEmpty_iff.1 empty, step, if_pos (by simp [started.running, mostFrames])]
      rfl
    rw [drive_go pop, drive_finish rfl, Holds, run, Scheduler.launch, if_neg (by simp [empty])]
    exact ⟨rfl, rfl⟩
  | false =>
    have spawned := spawned_of_plain (plain_origin plain) x.world
    rw [Holds, run, Scheduler.launch, if_pos (by simp [started.running, there, empty]),
      Scheduler.start_alone x.program started.room spawned]
    exact ⟨rfl, rfl⟩

section Tick

variable {frames : List Frame} {seconds : Float}

theorem tick_early (tasks : (x.run n).1.tasks = [⟨0, x.owner, frames, .time seconds⟩])
    (running : (x.run n).2.running = true) (present : x.owner ∈ (x.run n).2.scene.ids)
    (early : isDue ((x.run n).2.withNow (x.clock n)) seconds = false) :
    (x.run (n + 1)).1.tasks = (x.run n).1.tasks ∧
      (x.run (n + 1)).2 = (x.run n).2.withNow (x.clock n) := by
  have visited := Scheduler.visit_early x.program ⟨0, x.owner, frames, .time seconds⟩
    ((x.run n).2.withNow (x.clock n)) present rfl early
  obtain ⟨kept, world⟩ := Scheduler.tick_single x.program tasks visited running
  exact ⟨kept.trans tasks.symm, world⟩

theorem tick_due (tasks : (x.run n).1.tasks = [⟨0, x.owner, frames, .time seconds⟩])
    (running : (x.run n).2.running = true) (present : x.owner ∈ (x.run n).2.scene.ids)
    (plain : PlainStack x.program x.owner frames)
    (due : isDue ((x.run n).2.withNow (x.clock n)) seconds = true) :
    x.Drives (n + 1) frames ((x.run n).2.withNow (x.clock n)) ∧
      x.Holds (n + 1)
        (drive x.program x.owner frames {} ((x.run n).2.withNow (x.clock n))) := by
  have waits : ⟨0, x.owner, frames, .time seconds⟩ ∈ (x.run n).1.tasks := by
    rw [tasks]
    exact List.mem_cons_self
  have visited := Scheduler.visit_due x.program ⟨0, x.owner, frames, .time seconds⟩
    ((x.run n).2.withNow (x.clock n)) present rfl due
  simp only [spawned_of_plain plain] at visited
  exact ⟨.tick waits due, Scheduler.tick_single x.program tasks visited running⟩

end Tick

/-! ### The run of the plain code -/

/-- The task waits on its way, and whenever it is driven it goes on from here. -/
structure Waits (x : Solo) (n : Nat) (frames : List Frame) (seconds : Float) : Prop where
  tasks : (x.run n).1.tasks = [⟨0, x.owner, frames, .time seconds⟩]
  way : ∀ time, Strides x.program x.owner x.origin (frames, (x.run n).2.withNow time)

structure Ends (x : Solo) (n : Nat) : Prop where
  ended : x.Over n
  completes : ∃ w time, Completes x.program x.owner x.origin w ∧ (x.run n).2 = w.withNow time

theorem waits_or_ends_of_drive (plain : Plain x.program x.owner x.body) {frames : List Frame}
    {w : World} (way : Strides x.program x.owner x.origin (frames, w))
    (fits : Structured.Fits x.program x.owner frames w)
    (holds : x.Holds n (drive x.program x.owner frames {} w)) :
    (∃ frames seconds, x.Waits n frames seconds) ∨ x.Ends n := by
  have plain' := way.plain (plain_origin plain)
  obtain ⟨last, w₁, path, ⟨frames', seconds, w', move, eq⟩ | ⟨w', move, eq⟩⟩ :=
    drive_plain plain' {}
  all_goals
    have whole := way.trans (strides_of_passes plain' path).2
    rw [eq] at holds
    obtain ⟨tasks, world⟩ := holds
  · refine .inl ⟨frames', seconds, tasks, fun time => ?_⟩
    rw [world]
    exact whole.trans (Stride.rest time move).strides
  · exact .inr ⟨tasks, w', w'.now, ⟨_, whole, fits _ _ _ path, move⟩, world⟩

theorem waits_or_ends (started : x.Started) (plain : Plain x.program x.owner x.body)
    (low : x.StaysLow) (n : Nat) : (∃ frames seconds, x.Waits n frames seconds) ∨ x.Ends n := by
  induction n with
  | zero =>
    exact waits_or_ends_of_drive plain .refl (low _ _ _ .launch) (holds_launch started plain)
  | succ n ih =>
    obtain ⟨frames, seconds, tasks, way⟩ | ⟨ended, w, time, completes, world⟩ := ih
    · have grown : Grows x.world (x.run n).2 := (way (x.run n).2.now).grows
      have running := grown.running.trans started.running
      have present := grown.kept _ started.present
      cases due : isDue ((x.run n).2.withNow (x.clock n)) seconds with
      | false =>
        obtain ⟨tasks', world⟩ := tick_early tasks running present due
        refine .inl ⟨frames, seconds, tasks'.trans tasks, fun time => ?_⟩
        rw [world]
        exact way time
      | true =>
        obtain ⟨driven, holds⟩ :=
          tick_due tasks running present ((way 0).plain (plain_origin plain)) due
        exact waits_or_ends_of_drive plain (way _) (low _ _ _ driven) holds
    · obtain ⟨ended', time', world'⟩ := ended.stays 1
      exact .inr ⟨ended', w, time', completes, by rw [world', world, World.withNow_withNow]⟩

/-! ### The run of the padded code -/

theorem exists_due {frames : List Frame} {seconds : Float} {k : Nat}
    (due : seconds ≤ x.clock (n + k) + clockTolerance)
    (tasks : (x.run n).1.tasks = [⟨0, x.owner, frames, .time seconds⟩])
    (running : (x.run n).2.running = true) (present : x.owner ∈ (x.run n).2.scene.ids) :
    ∃ m time, (x.run m).1.tasks = [⟨0, x.owner, frames, .time seconds⟩] ∧
      (x.run m).2 = (x.run n).2.withNow time ∧
      isDue ((x.run m).2.withNow (x.clock m)) seconds = true := by
  induction k generalizing n with
  | zero => exact ⟨n, (x.run n).2.now, tasks, rfl, decide_eq_true due⟩
  | succ k ih =>
    cases now : isDue ((x.run n).2.withNow (x.clock n)) seconds with
    | true => exact ⟨n, (x.run n).2.now, tasks, rfl, now⟩
    | false =>
      obtain ⟨tasks', world⟩ := tick_early tasks running present now
      rw [← Nat.add_assoc, Nat.add_right_comm] at due
      obtain ⟨m, time, tasks'', world', due'⟩ := ih due (tasks'.trans tasks)
        (by rw [world]; exact running) (by rw [world]; exact present)
      exact ⟨m, time, tasks'', by rw [world', world, World.withNow_withNow], due'⟩

/-- Whatever lies on the way of the task is passed in one of its drives, at some time. -/
theorem exists_drive (started : x.Started) (plain : Plain x.program x.owner x.body)
    (clock : x.ClockSuffices) {y : List Frame × World}
    (way : Strides x.program x.owner x.origin y) :
    ∃ n frames w time, x.Drives n frames w ∧
      x.Holds n (drive x.program x.owner frames {} w) ∧
      Passes x.program x.owner frames w [] y.1 (y.2.withNow time) := by
  induction way with
  | refl => exact ⟨0, _, _, x.world.now, .launch, holds_launch started plain, .refl _ _⟩
  | @tail y z way stride ih =>
    obtain ⟨n, frames, w, time, driven, holds, path⟩ := ih
    have way' : Strides x.program x.owner x.origin z := Relation.ReflTransGen.tail way stride
    cases stride with
    | go move =>
      exact ⟨n, frames, w, time, driven, holds, path.trans (.single_go (go_withNow move time))⟩
    | rest time' move =>
      -- The drive ends with this rest, and the one at the first tick that is late enough goes on.
      obtain ⟨seconds, move'⟩ := suspend_withNow move time
      rw [drive_passes path, drive_suspend move'] at holds
      obtain ⟨tasks, world⟩ := holds
      have running : (x.run n).2.running = true := by
        rw [world]
        exact way'.grows.running.trans started.running
      have present : x.owner ∈ (x.run n).2.scene.ids := by
        rw [world]
        exact way'.grows.kept _ started.present
      obtain ⟨_, le, reached⟩ := clock n _ (by rw [tasks]; exact List.mem_cons_self) seconds rfl
      obtain ⟨k, rfl⟩ := Nat.exists_eq_add_of_le le
      obtain ⟨m, time'', tasks', world', due⟩ := exists_due reached tasks running present
      rw [world] at world'
      obtain ⟨driven', holds'⟩ := tick_due tasks' (by rw [world']; exact world ▸ running)
        (by rw [world']; exact world ▸ present) (way'.plain (plain_origin plain)) due
      refine ⟨m + 1, _, _, x.clock m, driven', holds', ?_⟩
      rw [world']
      exact .refl _ _

theorem low_origin (started : x.Started) (plain : Plain x.program x.owner x.body)
    (low : x.StaysLow) (clock : x.ClockSuffices) : Low x.program x.owner x.origin := by
  intro y way
  obtain ⟨n, frames, w, time, driven, -, path⟩ := exists_drive started plain clock way
  exact low n frames w driven _ _ _ path

theorem over_of_completes (started : x.Started) (plain : Plain x.program x.owner x.body)
    (clock : x.ClockSuffices) {w : World} (completes : Completes x.program x.owner x.origin w) :
    ∃ n time, x.Over n ∧ (x.run n).2 = w.withNow time := by
  obtain ⟨y, way, -, finish⟩ := completes
  obtain ⟨n, frames, w, time, -, holds, path⟩ := exists_drive started plain clock way
  rw [drive_passes path, drive_finish (finish_withNow finish time)] at holds
  exact ⟨n, time, holds.1, holds.2⟩

theorem over_of_not_started (unstarted : ¬ x.Started) : x.Over 0 ∧ (x.run 0).2 = x.world := by
  rw [Over, run, Scheduler.launch]
  split
  · rename_i launches
    simp only [Bool.and_eq_true, Scene.contains_iff] at launches
    have full : x.world.config.mostTasks ≤ ({} : Scheduler).tasks.length :=
      Nat.le_of_not_lt fun room => unstarted ⟨launches.1.1, launches.2, room⟩
    rw [Scheduler.start_full x.program full]
    exact ⟨rfl, rfl⟩
  · exact ⟨rfl, rfl⟩

/-- Suspension changes when a script runs and nothing of what it does. If the plain code of a task
runs to its end, so does the code with waits put in, under any clock that comes to the times it
waits for; and the world it leaves is the same but for the clock. -/
theorem waits_leave_no_trace (x : Solo) (body : List Instruction) (clock : Nat → Float)
    (plain : Plain x.program x.owner x.body) (padded : Padded x.body body) (low : x.StaysLow)
    (low' : StaysLow { x with body, clock }) (clock' : ClockSuffices { x with body, clock })
    {n : Nat} (ended : x.Over n) :
    ∃ n', ∀ m, n' ≤ m → Over { x with body, clock } m ∧
      ∃ time, (run { x with body, clock } m).2 = (x.run n).2.withNow time := by
  obtain ⟨n', ended', time, world⟩ : ∃ n', Over { x with body, clock } n' ∧
      ∃ time, (run { x with body, clock } n').2 = (x.run n).2.withNow time := by
    by_cases started : x.Started
    · obtain ⟨frames, seconds, waits⟩ | ⟨-, w, time, completes, world⟩ :=
        waits_or_ends started plain low n
      · rw [Over, waits.tasks] at ended
        contradiction
      · have started' : Started { x with body, clock } := ⟨started.1, started.2, started.3⟩
        have plain' : Plain x.program x.owner body := plain.padded padded
        have completes' := completes.padded (.cons (.sequence padded) .nil) (plain_origin plain)
          started.running (low_origin started' plain' low' clock')
        obtain ⟨n', time', ended', world'⟩ := over_of_completes started' plain' clock' completes'
        exact ⟨n', ended', time', by rw [world', world, World.withNow_withNow]⟩
    -- Whether a task is taken does not depend on its code.
    · have unstarted : ¬ Started { x with body, clock } :=
        fun started' => started ⟨started'.1, started'.2, started'.3⟩
      obtain ⟨idle, world⟩ := over_of_not_started started
      obtain ⟨idle', world'⟩ := over_of_not_started unstarted
      obtain ⟨-, time, still⟩ := idle.stays n
      rw [Nat.zero_add, world] at still
      exact ⟨0, idle', x.world.now, by rw [world', still]; rfl⟩
  refine ⟨n', fun m le => ?_⟩
  obtain ⟨k, rfl⟩ := Nat.exists_eq_add_of_le le
  obtain ⟨ended'', time', world'⟩ := ended'.stays k
  exact ⟨ended'', time', by rw [world', world, World.withNow_withNow]⟩

section Example

open Structured (announce fits_of_work)

def announcing : Solo where
  program := {}
  owner := ⟨1⟩
  body := [announce "ready", announce "go"]
  world := { World.ofConfig {} with
    scene := { objects := [{ id := ⟨1⟩ }], nextId := 2 }, running := true }
  clock := fun _ => 0

def pause : Instruction := ⟨.wait, [], .command, .wait 0, [], []⟩

def pausing : Solo :=
  { announcing with body := [announce "ready", pause, announce "go"], clock := fun _ => 1 }

theorem plain_announcing : Plain {} ⟨1⟩ announcing.body := by
  intro i hi
  cases hi with
  | here h => rcases List.mem_pair.1 h with rfl | rfl <;> trivial
  | inside h entered _ =>
    rcases List.mem_pair.1 h with rfl | rfl <;> simp [Instruction.framesFor, announce] at entered

theorem padded_pausing : Padded announcing.body pausing.body :=
  .keep .nil .nil (.wait ⟨0, rfl⟩ (.keep .nil .nil .nil))

theorem started_announcing : announcing.Started := ⟨rfl, by decide, by decide⟩

def readyWorld : World := announcing.world.raise (.message "ready")

theorem over_announcing : announcing.Over 0 := by
  have ready : step {} ⟨1⟩ [.sequence announcing.body] announcing.world =
      (.go [.sequence [announce "go"]], readyWorld) := rfl
  have go : step {} ⟨1⟩ [.sequence [announce "go"]] readyWorld =
      (.go [.sequence []], readyWorld.raise (.message "go")) := rfl
  have pop : step {} ⟨1⟩ [.sequence []] (readyWorld.raise (.message "go")) =
      (.go [], readyWorld.raise (.message "go")) := rfl
  have tasks := (holds_launch started_announcing plain_announcing).1
  change _ = (Option.map _ (drive {} ⟨1⟩ [.sequence announcing.body] {} _).suspended).toList
    at tasks
  rw [drive_go ready, drive_go go, drive_go pop, drive_finish rfl] at tasks
  exact tasks

def paused : Task := ⟨0, ⟨1⟩, [.sequence [announce "go"]], .time (readyWorld.now + 0)⟩

theorem run_pausing : (pausing.run 0).1.tasks = [paused] ∧ pausing.Over 1 := by
  have plain : Plain {} ⟨1⟩ pausing.body := plain_announcing.padded padded_pausing
  have ready : step {} ⟨1⟩ [.sequence pausing.body] announcing.world =
      (.go [.sequence [pause, announce "go"]], readyWorld) := rfl
  have rest : step {} ⟨1⟩ [.sequence [pause, announce "go"]] readyWorld =
      (.suspend [.sequence [announce "go"]] paused.wake, readyWorld) := rfl
  have holds : pausing.Holds 0 (drive {} ⟨1⟩ [.sequence pausing.body] {} announcing.world) :=
    holds_launch ⟨rfl, by decide, by decide⟩ plain
  rw [drive_go ready, drive_suspend rest] at holds
  obtain ⟨tasks, world⟩ := holds
  have due : isDue ((pausing.run 0).2.withNow (pausing.clock 0)) (readyWorld.now + 0) = true := by
    change decide (readyWorld.now + 0 ≤ 1 + clockTolerance) = true
    decide
  have left : PlainStack {} ⟨1⟩ [.sequence [announce "go"]] := by
    intro f hf i hi
    rw [List.mem_singleton.1 hf] at hi
    exact plain i hi.of_tail.of_tail
  have go : step {} ⟨1⟩ [.sequence [announce "go"]] (readyWorld.withNow 1) =
      (.go [.sequence []], (readyWorld.withNow 1).raise (.message "go")) := rfl
  have pop : step {} ⟨1⟩ [.sequence []] ((readyWorld.withNow 1).raise (.message "go")) =
      (.go [], (readyWorld.withNow 1).raise (.message "go")) := rfl
  obtain ⟨-, holds'⟩ := tick_due tasks (by rw [world]; rfl) (by rw [world]; decide) left due
  rw [world] at holds'
  change pausing.Holds 1 (drive {} ⟨1⟩ _ _ (readyWorld.withNow 1)) at holds'
  rw [drive_go go, drive_go pop, drive_finish rfl] at holds'
  exact ⟨tasks, holds'.1⟩

theorem over_pausing (k : Nat) : pausing.Over (k + 1) := by
  rw [Nat.add_comm]
  exact (run_pausing.2.stays k).1

theorem waits_leave_no_trace_pausing :
    announcing.StaysLow ∧ pausing.StaysLow ∧ pausing.ClockSuffices ∧ announcing.Over 0 ∧
      ∃ n', ∀ m, n' ≤ m → pausing.Over m ∧
        ∃ time, (pausing.run m).2 = (announcing.run 0).2.withNow time := by
  have low : announcing.StaysLow := by
    intro n frames w driven
    cases driven with
    | launch => exact fits_of_work (by decide)
    | @tick n _ waits =>
      have ended := (over_announcing.stays n).1
      rw [Nat.zero_add] at ended
      rw [ended] at waits
      contradiction
  have low' : pausing.StaysLow := by
    intro n frames w driven
    cases driven with
    | launch => exact fits_of_work (by decide)
    | @tick n t waits =>
      cases n with
      | zero =>
        rw [run_pausing.1] at waits
        rw [List.mem_singleton.1 waits]
        exact fits_of_work (by decide)
      | succ n =>
        rw [over_pausing n] at waits
        contradiction
  have clock : pausing.ClockSuffices := by
    intro n t waits seconds wake
    cases n with
    | zero =>
      rw [run_pausing.1] at waits
      rw [List.mem_singleton.1 waits] at wake
      obtain rfl := Wake.time.inj wake
      exact ⟨0, Nat.le_refl 0, by decide⟩
    | succ n =>
      rw [over_pausing n] at waits
      contradiction
  exact ⟨low, low', clock, over_announcing,
    waits_leave_no_trace announcing pausing.body pausing.clock plain_announcing padded_pausing low
      low' clock over_announcing⟩

end Example

end Solo
end BlockStage
