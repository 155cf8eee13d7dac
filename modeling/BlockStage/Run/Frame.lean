import BlockStage.Run.World
import BlockStage.Script.Compiled

/-!
Frames: what is left of one level of a running script. A loop frame puts one pass of its body on
top of itself; a loop without a count rests before its next pass.
-/

namespace BlockStage

/-- What a suspended task waits for. -/
inductive Wake
  /-- The clock to reach a time. -/
  | time (seconds : Float)
  /-- A condition, looked at again when the clock reaches a time. -/
  | poll (condition : Condition) (nextCheck : Float)
  /-- An effect to be over. -/
  | effect (id : RecordId)

inductive Frame
  /-- The instructions that are left. -/
  | sequence (rest : List Instruction)
  | repeatTimes (body : List Instruction) (left : Nat)
  /-- A resting loop yields before its next pass. -/
  | forever (body : List Instruction) (resting : Bool)
  | whileHolds (condition : Condition) (body : List Instruction) (resting : Bool)
  /-- The next value of the counter, if there is one, and the last one. -/
  | forEach (counter : String) (next : Option Int64) (last : Int64) (body : List Instruction)

namespace Frame

/-- What the top frame of a task asks for. -/
inductive Advance
  /-- Nothing: the frame is finished. -/
  | pop
  /-- To run an instruction; `self` is what is left of the frame. -/
  | run (instruction : Instruction) (self : Frame)
  /-- To run a pass of a body before going on with `self`. -/
  | push (body : List Instruction) (self : Frame)
  | rest (wake : Wake) (self : Frame)

/-- The value of a counter after `value`, one step nearer to `last`. -/
def counterAfter (value last : Int64) : Option Int64 :=
  if value < last then some (value + 1) else if last < value then some (value - 1) else none

/-- The time at which a loop that rests goes on. -/
def loopWake (w : World) : Wake := .time (w.now + w.config.loopRest)

def advance (frame : Frame) (owner : ObjectId) (w : World) : Advance × World :=
  match frame with
  | sequence [] => (.pop, w)
  | sequence (i :: rest) => (.run i (sequence rest), w)
  | repeatTimes _ 0 => (.pop, w)
  | repeatTimes body (left + 1) => (.push body (repeatTimes body left), w)
  | forever body true => (.rest (loopWake w) (forever body false), w)
  | forever body false => (.push body (forever body true), w)
  | whileHolds condition body true => (.rest (loopWake w) (whileHolds condition body false), w)
  | whileHolds condition body false =>
    match condition.holds owner w with
    | (true, w) => (.push body (whileHolds condition body true), w)
    | (false, w) => (.pop, w)
  | forEach _ none _ _ => (.pop, w)
  | forEach counter (some value) last body =>
    (.push body (forEach counter (counterAfter value last) last body),
      w.setVar counter (Scalar.ofWord value))

end Frame
end BlockStage
