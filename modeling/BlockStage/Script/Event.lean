import BlockStage.Scalar.Order
import BlockStage.Script.Arguments
import BlockStage.Script.Opcode

/-!
What happens during a run, and what starts a script.
-/

namespace BlockStage

inductive Event
  | start
  | click
  | key (label : String)
  /-- The object touched something of this category. -/
  | collide (category : String)
  | message (text : String)
  | healthZero
  | enemyDefeated
  | itemCollected
  | levelStart
  | timerDone
  | livesZero
deriving DecidableEq

inductive Trigger
  | start
  | click
  | key (label : String)
  /-- Touching something of this category; `any` stands for all of them. -/
  | collide (category : String)
  /-- Again and again, with this many seconds in between. -/
  | timer (period : Float)
  | message (text : String)
  | healthZero
  | enemyDefeated
  | itemCollected
  | levelStart
  | timerDone
  | livesZero
  /-- The body of a block of the user's own, run by calls alone. -/
  | define (name : String)

namespace Trigger

def shortestPeriod : Float := 0.05

/-- A period that is finite and positive, but not too short; one second for everything else. -/
def timerPeriod (seconds : Float) : Float :=
  Scalar.larger (if seconds.isFinite && 0 < seconds then seconds else 1) shortestPeriod

/-- The trigger of a hat with the given arguments. -/
def ofHat? (op : Opcode) (r : ArgumentReader) : Option Trigger :=
  match op with
  | .onStart => some start
  | .onClick => some click
  | .onKey => some (key (r.text "key"))
  | .onCollide => some (collide (r.text "object"))
  | .onTimer => some (timer (timerPeriod (r.number "seconds")))
  | .onMessage => some (message (r.text "msg"))
  | .onHealthZero => some healthZero
  | .onEnemyDefeated => some enemyDefeated
  | .onItemCollected => some itemCollected
  | .onLevelStart => some levelStart
  | .onTimerDone => some timerDone
  | .onLivesZero => some livesZero
  | .defineBlock => some (define (r.text "name"))
  | _ => none

def opcode : Trigger → Opcode
  | start => .onStart
  | click => .onClick
  | key _ => .onKey
  | collide _ => .onCollide
  | timer _ => .onTimer
  | message _ => .onMessage
  | healthZero => .onHealthZero
  | enemyDefeated => .onEnemyDefeated
  | itemCollected => .onItemCollected
  | levelStart => .onLevelStart
  | timerDone => .onTimerDone
  | livesZero => .onLivesZero
  | define _ => .defineBlock

/-- Whether an event starts the script. Timers and definitions wait for no event. -/
def accepts : Trigger → Event → Bool
  | start, .start => true
  | click, .click => true
  | key wanted, .key label => wanted = label
  | collide wanted, .collide category => wanted = "any" || wanted = category
  | message wanted, .message text => wanted = text
  | healthZero, .healthZero => true
  | enemyDefeated, .enemyDefeated => true
  | itemCollected, .itemCollected => true
  | levelStart, .levelStart => true
  | timerDone, .timerDone => true
  | livesZero, .livesZero => true
  | _, _ => false

/-- Whether the script is the definition of that name. -/
def defines : Trigger → String → Bool
  | define own, name => own = name
  | _, _ => false

end Trigger
end BlockStage
