import BlockStage.Proofs.Run.Drive
import BlockStage.Proofs.Run.Recast

/-! The numbers of effects and tasks are names and no more. With the numbers of the effects raised
by `k` and those of the tasks by `m`, every part of a run does the same. -/

namespace BlockStage

variable (k m : Nat)

def World.renumber (w : World) : World := w.recast id k

namespace World

variable {k} (w : World)

@[simp] theorem renumber_scene : (w.renumber k).scene = w.scene := rfl

@[simp] theorem renumber_running : (w.renumber k).running = w.running := rfl

@[simp] theorem renumber_now : (w.renumber k).now = w.now := rfl

@[simp] theorem renumber_config : (w.renumber k).config = w.config := rfl

theorem renumber_holds (condition : Condition) (owner : ObjectId) :
    condition.holds owner (w.renumber k) =
      ((condition.holds owner w).1, (condition.holds owner w).2.renumber k) :=
  w.recast_holds id owner condition

end World

namespace Task

def Move.shift : Move → Move
  | suspend frames wake => suspend frames (wake.shift k)
  | other => other

def Halt.renumber (h : Halt) : Halt where
  suspended := h.suspended.map fun (frames, wake) => (frames, wake.shift k)
  spawned := h.spawned
  world := h.world.renumber k

def renumber (t : Task) : Task := { t with id := t.id + m, wake := t.wake.shift k }

variable {k} (program : Program) (owner : ObjectId)

theorem stepTop_renumber (top : Frame) (below : List Frame) (w : World) :
    stepTop program owner top below (w.renumber k) =
      ((stepTop program owner top below w).1.shift k,
        (stepTop program owner top below w).2.renumber k) := by
  simp only [stepTop, World.renumber, top.advance_recast owner w (.inl rfl)]
  rcases ha : top.advance owner w with ⟨ask, w'⟩
  cases ask with
  | rest wake self =>
    rw [Frame.wake_of_advance_rest ha]
    rfl
  | run i self =>
    simp only [i.execute_recast owner program w' (.inl rfl)]
    rcases i.execute owner program w' with ⟨flow, w''⟩
    cases flow <;> rfl
  | _ => rfl

theorem step_renumber (frames : List Frame) (w : World) :
    step program owner frames (w.renumber k) =
      ((step program owner frames w).1.shift k, (step program owner frames w).2.renumber k) := by
  cases frames with
  | nil => rfl
  | cons top below =>
    by_cases ready : (w.running && decide (below.length < mostFrames)) = true
    · simp only [step, World.renumber_running, ready, if_true]
      exact stepTop_renumber program owner top below w
    · simp only [step, World.renumber_running, ready]
      rfl

theorem drive_renumber (frames : List Frame) (q : Queue Frame) (w : World) :
    drive program owner frames q (w.renumber k) =
      (drive program owner frames q w).renumber k := by
  have renumbered {frames : List Frame} {w w' : World} {move : Move}
      (h : step program owner frames w = (move, w')) :
      step program owner frames (w.renumber k) = (move.shift k, w'.renumber k) := by
    rw [step_renumber, h]
  fun_induction drive program owner frames q w with
  | case1 frames q w frames' w' move ih => rw [drive_go (renumbered move), ih]
  | case2 frames q w frames' frame w' move ih => rw [drive_spawn (renumbered move), ih]
  | case3 frames q w frames' wake w' move => exact drive_suspend (renumbered move) q
  | case4 frames q w w' move => exact drive_finish (renumbered move) q

theorem wakes_renumber (t : Task) (w : World) :
    (t.renumber k m).wakes (w.renumber k) =
      ((t.wakes w).1, (t.wakes w).2.1.shift k, (t.wakes w).2.2.renumber k) := by
  obtain ⟨number, owner, frames, wake⟩ := t
  cases wake with
  | time seconds => rfl
  | effect record =>
    have there : (w.renumber k).effects.contains (record.shift k) = w.effects.contains record :=
      w.effects.shift_contains k record
    simp only [wakes, renumber, Wake.shift, there]
  | poll condition nextCheck =>
    simp only [wakes, renumber, Wake.shift, w.renumber_holds, World.renumber_now]
    split
    · rfl
    · rcases condition.holds owner w with ⟨_ | _, w'⟩ <;> rfl

end Task

namespace Scheduler

def renumber (s : Scheduler) : Scheduler := ⟨s.tasks.map (·.renumber k m), s.nextId + m⟩

variable {k m} (program : Program) (owner : ObjectId) (s : Scheduler) (w : World)

theorem startNext_renumber (frame : Frame) (waiting : Queue Frame) :
    startNext program owner frame waiting (s.renumber k m) (w.renumber k) =
      let next := startNext program owner frame waiting s w
      (next.1, next.2.1.renumber k m, next.2.2.renumber k) := by
  have count : (s.renumber k m).tasks.length = s.tasks.length := List.length_map _
  simp only [startNext, count, World.renumber_config]
  split
  · rfl
  · rw [Task.drive_renumber]
    -- A task gets its number at its start, also if it does not outlive its first drive.
    have numbers : s.nextId + m + 1 = s.nextId + 1 + m := by omega
    rcases Task.drive program owner [frame] waiting w with ⟨_ | ⟨frames, wake⟩, spawned, w'⟩ <;>
      simp [renumber, Task.Halt.renumber, numbers, Task.renumber]

theorem startAll_renumber (supply : Nat) (waiting : Queue Frame) :
    startAll program owner supply waiting (s.renumber k m) (w.renumber k) =
      let started := startAll program owner supply waiting s w
      (started.1.renumber k m, started.2.renumber k) := by
  induction supply generalizing waiting s w with
  | zero => rfl
  | succ supply ih =>
    simp only [startAll]
    cases waiting.pop? with
    | none => rfl
    | some popped => simp only [startNext_renumber, ih]

theorem start_renumber (frame : Frame) :
    start program owner frame (s.renumber k m) (w.renumber k) =
      let started := start program owner frame s w
      (started.1.renumber k m, started.2.renumber k) :=
  startAll_renumber program owner s w mostStarts _

theorem startEach_renumber (starts : List (ObjectId × Frame)) :
    startEach program starts (s.renumber k m) (w.renumber k) =
      let started := startEach program starts s w
      (started.1.renumber k m, started.2.renumber k) := by
  induction starts generalizing s w with
  | nil => rfl
  | cons p rest ih => simp only [startEach, start_renumber, ih]

theorem launch_renumber (body : List Instruction) :
    launch program owner body (s.renumber k m) (w.renumber k) =
      let launched := launch program owner body s w
      (launched.1.renumber k m, launched.2.renumber k) := by
  by_cases there : (w.running && !body.isEmpty && w.scene.contains owner) = true
  · simp only [launch, World.renumber_running, World.renumber_scene, there, if_true]
    exact start_renumber program owner s w _
  · simp only [launch, World.renumber_running, World.renumber_scene, there]
    rfl

theorem visit_renumber (t : Task) :
    visit program (t.renumber k m) (w.renumber k) =
      let visited := visit program t w
      (visited.1.map (·.renumber k m), visited.2.1, visited.2.2.renumber k) := by
  have owner : (t.renumber k m).owner = t.owner := rfl
  simp only [visit, Task.wakes_renumber, owner, World.renumber_scene]
  split
  · rcases t.wakes w with ⟨_ | _, wake, w'⟩
    · rfl
    · simp only [Task.renumber, Task.drive_renumber]
      rcases Task.drive program t.owner t.frames {} w' with ⟨_ | ⟨frames, wake⟩, spawned, w''⟩ <;>
        rfl
  · rfl

theorem visitAll_renumber (tasks : List Task) :
    visitAll program (tasks.map (·.renumber k m)) (w.renumber k) =
      let visited := visitAll program tasks w
      (visited.1.map (·.renumber k m), visited.2.1, visited.2.2.renumber k) := by
  induction tasks generalizing w with
  | nil => rfl
  | cons t rest ih =>
    simp only [List.map_cons, visitAll, visit_renumber, ih, List.map_append, Option.toList_map]
    rfl

theorem tick_renumber :
    tick program (s.renumber k m) (w.renumber k) =
      let ticked := tick program s w
      (ticked.1.renumber k m, ticked.2.renumber k) := by
  by_cases running : w.running = true
  · have tasks : (s.renumber k m).tasks = s.tasks.map (·.renumber k m) := rfl
    rw [tick_eq program s running, tick_eq program _ (by exact running), tasks]
    simp only [visitAll_renumber]
    exact startEach_renumber program { s with tasks := (visitAll program s.tasks w).1 } _ _
  · rw [tick, if_neg (by exact running), tick, if_neg running]
    rfl

theorem cancelOwner_renumber :
    (s.renumber k m).cancelOwner owner = (s.cancelOwner owner).renumber k m := by
  simp only [cancelOwner, renumber, List.filter_map]
  rfl

end Scheduler

namespace Dispatcher

variable {k m} (d : Dispatcher) (s : Scheduler) (w : World)

theorem launch_renumber (entry : Program.Entry) :
    d.launch entry (s.renumber k m) (w.renumber k) =
      let launched := d.launch entry s w
      (launched.1.renumber k m, launched.2.renumber k) :=
  Scheduler.launch_renumber d.program entry.owner s w _

theorem launchAll_renumber (entries : List Program.Entry) :
    d.launchAll entries (s.renumber k m) (w.renumber k) =
      let launched := d.launchAll entries s w
      (launched.1, launched.2.1.renumber k m, launched.2.2.renumber k) := by
  induction entries generalizing s w with
  | nil => rfl
  | cons entry rest ih =>
    simp only [launchAll, launch_renumber, ih, World.renumber_scene]
    split <;> rfl

theorem dispatch_renumber (event : Event) (target : Option ObjectId) :
    d.dispatch event target (s.renumber k m) (w.renumber k) =
      let dispatched := d.dispatch event target s w
      (dispatched.1, dispatched.2.1.renumber k m, dispatched.2.2.renumber k) := by
  simp only [dispatch]
  split
  · exact launchAll_renumber d s w _
  · rfl

theorem fireAll_renumber (timers : List Timer) :
    d.fireAll timers (s.renumber k m) (w.renumber k) =
      let fired := d.fireAll timers s w
      (fired.1, fired.2.1.renumber k m, fired.2.2.renumber k) := by
  induction timers generalizing s w with
  | nil => rfl
  | cons t rest ih =>
    simp only [fireAll, launch_renumber, ih, World.renumber_now]
    split <;> rfl

theorem fireTimers_renumber :
    d.fireTimers (s.renumber k m) (w.renumber k) =
      let fired := d.fireTimers s w
      (fired.1, fired.2.1.renumber k m, fired.2.2.renumber k) := by
  simp only [fireTimers]
  split
  · simp only [fireAll_renumber]
  · rfl

end Dispatcher
end BlockStage
