import BlockStage.Run.Scheduler

/-!
From events to scripts. While a run lasts, the dispatcher holds its program and launches the
scripts whose trigger accepts an event or whose timer is due.
-/

namespace BlockStage

inductive DispatchState
  | idle
  | running
  | stopped
deriving DecidableEq

/-- A script that is launched again and again. -/
structure Timer where
  entry : Program.Entry
  period : Float
  nextFire : Float

namespace Timer

/-- The timer of an entry, if it has one. It fires for the first time after one period. -/
def ofEntry? (now : Float) (entry : Program.Entry) : Option Timer :=
  match entry.script.trigger with
  | .timer period => some ⟨entry, period, now + period⟩
  | _ => none

def isDue (t : Timer) (now : Float) : Bool := !(now + Task.clockTolerance < t.nextFire)

/-- The timer after a fire. A fire that was missed is not made up for. -/
def rearm (t : Timer) (now : Float) : Timer :=
  let next := t.nextFire + t.period
  { t with nextFire := if next ≤ now then now + t.period else next }

end Timer

structure Dispatcher where
  state : DispatchState := .idle
  program : Program := {}
  timers : List Timer := []

namespace Dispatcher

def start (program : Program) (now : Float) : Dispatcher :=
  ⟨.running, program, program.entries.filterMap (Timer.ofEntry? now)⟩

def stopped : Dispatcher := { state := .stopped }

/-- Launches the script of an entry whose object is there. -/
def launch (d : Dispatcher) (entry : Program.Entry) (s : Scheduler) (w : World) :
    Scheduler × World :=
  s.launch d.program entry.owner entry.script.body w

/-- Launches the entries in order, and counts those whose object is there when its turn comes. -/
def launchAll (d : Dispatcher) : List Program.Entry → Scheduler → World → Nat × Scheduler × World
  | [], s, w => (0, s, w)
  | entry :: rest, s, w =>
    if w.scene.contains entry.owner then
      let (s, w) := d.launch entry s w
      let (count, s, w) := launchAll d rest s w
      (count + 1, s, w)
    else launchAll d rest s w

/-- Launches every script that an event starts, perhaps of a single object. -/
def dispatch (d : Dispatcher) (event : Event) (target : Option ObjectId) (s : Scheduler)
    (w : World) : Nat × Scheduler × World :=
  if d.state = .running then d.launchAll (d.program.matching event target) s w else (0, s, w)

/-- Fires every timer that is due, at most once each. -/
def fireAll (d : Dispatcher) : List Timer → Scheduler → World → List Timer × Scheduler × World
  | [], s, w => ([], s, w)
  | t :: rest, s, w =>
    if t.isDue w.now then
      let (s, w) := d.launch t.entry s w
      let (timers, s, w) := fireAll d rest s w
      (t.rearm w.now :: timers, s, w)
    else
      let (timers, s, w) := fireAll d rest s w
      (t :: timers, s, w)

def fireTimers (d : Dispatcher) (s : Scheduler) (w : World) : Dispatcher × Scheduler × World :=
  if d.state = .running then
    let (timers, s, w) := d.fireAll d.timers s w
    ({ d with timers }, s, w)
  else (d, s, w)

end Dispatcher
end BlockStage
