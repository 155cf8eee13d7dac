import BlockStage.Run.Execute

/-!
One step of a running script: the top frame of its stack asks for something, and the stack changes
accordingly.
-/

namespace BlockStage.Task

/-- A task with more frames than this is given up. -/
def mostFrames : Nat := 256

/-- The outcome of one step. -/
inductive Move
  | go (frames : List Frame)
  /-- To go on, and start a task for another frame. -/
  | spawn (frames : List Frame) (frame : Frame)
  | suspend (frames : List Frame) (wake : Wake)
  | finish

/-- What a flow asks for, on top of the other frames. -/
def Move.ofFlow (frames : List Frame) : Flow → Move
  | .next => go frames
  | .enter frame => go (frame :: frames)
  | .spawn frame => spawn frames frame
  | .suspend wake => suspend frames wake
  | .stop => finish

/-- One step of the top frame. -/
def stepTop (program : Program) (owner : ObjectId) (top : Frame) (below : List Frame)
    (w : World) : Move × World :=
  match top.advance owner w with
  | (.pop, w) => (.go below, w)
  | (.push body self, w) => (.go (.sequence body :: self :: below), w)
  | (.rest wake self, w) => (.suspend (self :: below) wake, w)
  | (.run i self, w) =>
    let (flow, w) := i.execute owner program w
    (.ofFlow (self :: below) flow, w)

/-- One step of a stack of frames. -/
def step (program : Program) (owner : ObjectId) (frames : List Frame) (w : World) : Move × World :=
  match frames with
  | [] => (.finish, w)
  | top :: below =>
    if w.running && decide (below.length < mostFrames) then stepTop program owner top below w
    else (.finish, w)

end BlockStage.Task
