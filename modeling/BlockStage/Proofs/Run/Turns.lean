import BlockStage.Proofs.Run.Evolution
import BlockStage.Run.Dispatcher

/-! A start is its first round and those of what it spawns; a tick visits the tasks and starts what
they have spawned, frame after frame. -/

namespace BlockStage

variable (program : Program) (owner : ObjectId)

namespace Task

theorem grows_wakes (t : Task) (w : World) : Grows w (t.wakes w).2.2 := by
  unfold wakes
  split
  · exact .refl w
  · exact .refl w
  · rename_i condition _ _
    split
    · exact .refl w
    · have held := (condition.calm_holds t.owner w).grows
      split <;> simp_all

end Task

namespace Scheduler

theorem startAll_empty (supply : Nat) (s : Scheduler) (w : World) :
    startAll program owner supply {} s w = (s, w) := by
  cases supply <;> rfl

theorem start_eq_first (frame : Frame) (s : Scheduler) (w : World) :
    start program owner frame s w =
      let next := startNext program owner frame {} s w
      startAll program owner (mostStarts - 1) next.1 next.2.1 next.2.2 := by
  change startAll program owner (mostStarts - 1 + 1) _ s w = _
  rfl

variable {program owner}

theorem launch_of_drive {body : List Instruction} {s : Scheduler} {w w' : World}
    (drives : Task.drive program owner [.sequence body] {} w = ⟨none, {}, w'⟩)
    (nonempty : body ≠ []) (running : w.running = true) (there : w.scene.contains owner = true)
    (room : s.tasks.length < w.config.mostTasks) :
    launch program owner body s w = ({ s with nextId := s.nextId + 1 }, w') := by
  have ready : (w.running && !body.isEmpty && w.scene.contains owner) = true := by
    simp [running, nonempty, there]
  have first : startNext program owner (.sequence body) {} s w =
      ({}, { s with nextId := s.nextId + 1 }, w') := by
    rw [startNext, if_neg (Nat.not_le.2 room), drives]
  rw [launch, if_pos ready, start_eq_first, first]
  exact startAll_empty _ _ _ _ _

variable (program)

def startEach : List (ObjectId × Frame) → Scheduler → World → Scheduler × World
  | [], s, w => (s, w)
  | (owner, frame) :: rest, s, w =>
    let (s, w) := start program owner frame s w
    startEach rest s w

theorem foldl_start {f : Scheduler × World → ObjectId × Frame → Scheduler × World}
    (hf : ∀ s w p, f (s, w) p = start program p.1 p.2 s w) (starts : List (ObjectId × Frame))
    (s : Scheduler) (w : World) : starts.foldl f (s, w) = startEach program starts s w := by
  induction starts generalizing s w with
  | nil => rfl
  | cons p rest ih => rw [List.foldl_cons, hf, ih, startEach]

theorem tick_eq (s : Scheduler) {w : World} (running : w.running = true) :
    tick program s w =
      let (tasks, spawned, w) := visitAll program s.tasks w
      startEach program spawned { s with tasks } w := by
  rw [tick, if_pos running]
  exact foldl_start program (fun _ _ _ => rfl) _ _ _

end Scheduler

theorem Dispatcher.dispatch_of_drive {d : Dispatcher} {event : Event} {target : Option ObjectId}
    {entry : Program.Entry} {s : Scheduler} {w w' : World} (state : d.state = .running)
    (matching : d.program.matching event target = [entry])
    (drives : Task.drive d.program entry.owner [.sequence entry.script.body] {} w =
      ⟨none, {}, w'⟩)
    (nonempty : entry.script.body ≠ []) (running : w.running = true)
    (there : w.scene.contains entry.owner = true) (room : s.tasks.length < w.config.mostTasks) :
    d.dispatch event target s w = (1, { s with nextId := s.nextId + 1 }, w') := by
  rw [dispatch, if_pos state, matching, launchAll, if_pos there, launch,
    Scheduler.launch_of_drive drives nonempty running there room]
  rfl

end BlockStage
