import BlockStage.Run.Work

/-!
Tasks: running scripts as stacks of frames. A task is driven step by step until it suspends, stops
or has no frame left.
-/

namespace BlockStage

/-- A suspended task. The top frame is the first. -/
structure Task where
  id : Nat
  owner : ObjectId
  frames : List Frame
  wake : Wake

namespace Task

/-- Where a drive comes to a halt. -/
structure Halt where
  /-- The frames that wait, and for what; `none` if the task is finished. -/
  suspended : Option (List Frame × Wake)
  /-- The frames that want a task of their own, behind those of earlier drives. -/
  spawned : Queue Frame
  world : World

/-- Runs until the next halt. -/
def drive (program : Program) (owner : ObjectId) (frames : List Frame) (spawned : Queue Frame)
    (w : World) : Halt :=
  match _h : step program owner frames w with
  | (.go frames', w') => drive program owner frames' spawned w'
  | (.spawn frames' frame, w') => drive program owner frames' (spawned.push frame) w'
  | (.suspend frames' wake, w') => ⟨some (frames', wake), spawned, w'⟩
  | (.finish, w') => ⟨none, spawned, w'⟩
termination_by work owner program frames
decreasing_by all_goals exact work_step (by rw [_h]; rfl)

/-- The clock's readings count as equal this close to each other. -/
def clockTolerance : Float := 1e-9

/-- Whether a wake time has come. -/
def isDue (w : World) (time : Float) : Bool := time ≤ w.now + clockTolerance

/-- Whether a task may go on, and what it waits for if not. A condition that does not hold is looked
at again after the poll interval. -/
def wakes (t : Task) (w : World) : Bool × Wake × World :=
  match t.wake with
  | .time seconds => (isDue w seconds, t.wake, w)
  | .effect id => (!w.effects.contains id, t.wake, w)
  | .poll condition nextCheck =>
    if w.now + clockTolerance < nextCheck then (false, t.wake, w)
    else
      match condition.holds t.owner w with
      | (true, w) => (true, t.wake, w)
      | (false, w) => (false, .poll condition (w.now + w.config.pollInterval), w)

end Task
end BlockStage
