import BlockStage.Run.Task

/-!
The live tasks of a run, in the order of their ids. A task starts at once and runs to its first
halt; tasks that it spawns start behind it, first come, first served. Every tick gives each task
whose wait is over one more drive.
-/

namespace BlockStage

structure Scheduler where
  tasks : List Task := []
  /-- Counts the tasks that were started, of which there are fewer than 2^64 however long a run
  lasts, so that a word of 64 bits holds it. -/
  nextId : Nat := 0

namespace Scheduler

/-- Starts a task for a frame unless there are too many; with it, the frames that wait behind. -/
def startNext (program : Program) (owner : ObjectId) (frame : Frame) (waiting : Queue Frame)
    (s : Scheduler) (w : World) : Queue Frame × Scheduler × World :=
  if w.config.mostTasks ≤ s.tasks.length then (waiting, s, w)
  else
    let halt := Task.drive program owner [frame] waiting w
    let tasks := match halt.suspended with
      | some (frames, wake) => s.tasks ++ [⟨s.nextId, owner, frames, wake⟩]
      | none => s.tasks
    (halt.spawned, ⟨tasks, s.nextId + 1⟩, halt.world)

/-- Starts the waiting frames and the ones they spawn, one for each unit of the supply. -/
def startAll (program : Program) (owner : ObjectId) :
    (supply : Nat) → Queue Frame → Scheduler → World → Scheduler × World
  | 0, _, s, w => (s, w)
  | supply + 1, waiting, s, w =>
    match waiting.pop? with
    | none => (s, w)
    | some (frame, waiting) =>
      let (waiting, s, w) := startNext program owner frame waiting s w
      startAll program owner supply waiting s w

/-- More starts than any machine gets through. Only scripts that spawn themselves without end could
use them up. -/
def mostStarts : Nat := 0x4000000000000000

def start (program : Program) (owner : ObjectId) (frame : Frame) (s : Scheduler) (w : World) :
    Scheduler × World :=
  startAll program owner mostStarts (.ofList [frame]) s w

/-- Starts a task for the body of a script, if its owner is there. -/
def launch (program : Program) (owner : ObjectId) (body : List Instruction) (s : Scheduler)
    (w : World) : Scheduler × World :=
  if w.running && !body.isEmpty && w.scene.contains owner then
    start program owner (.sequence body) s w
  else (s, w)

/-- One task in one tick: what is left of it, and the frames it spawned. -/
def visit (program : Program) (t : Task) (w : World) : Option Task × Queue Frame × World :=
  if w.scene.contains t.owner then
    match t.wakes w with
    | (false, wake, w) => (some { t with wake }, {}, w)
    | (true, _, w) =>
      let halt := Task.drive program t.owner t.frames {} w
      (halt.suspended.map fun (frames, wake) => { t with frames, wake }, halt.spawned, halt.world)
  else (none, {}, w)

/-- All tasks in one tick, each in the world that those before it left. -/
def visitAll (program : Program) : List Task → World → List Task × List (ObjectId × Frame) × World
  | [], w => ([], [], w)
  | t :: rest, w =>
    let (kept, frames, w) := visit program t w
    let (tasks, spawned, w) := visitAll program rest w
    (kept.toList ++ tasks, frames.toList.map (t.owner, ·) ++ spawned, w)

def tick (program : Program) (s : Scheduler) (w : World) : Scheduler × World :=
  if w.running then
    let (tasks, spawned, w) := visitAll program s.tasks w
    spawned.foldl (fun (s, w) (owner, frame) => start program owner frame s w)
      ({ s with tasks }, w)
  else ({ s with tasks := [] }, w)

/-- Drops every task of an object. -/
def cancelOwner (s : Scheduler) (owner : ObjectId) : Scheduler :=
  { s with tasks := s.tasks.filter (·.owner ≠ owner) }

def clear (s : Scheduler) : Scheduler := { s with tasks := [] }

end Scheduler
end BlockStage
