import BlockStage.Proofs.Events.Raising

/-! The books of a run: its variables, the events that wait, and the countdown. What each
instruction writes into them; the rest of the world may change as it will. -/

namespace BlockStage

structure World.SameBooks (w w' : World) : Prop where
  vars : w'.vars = w.vars
  raised : w'.raised = w.raised
  countdown : w'.countdown = w.countdown

namespace World.SameBooks

variable {w w' w'' : World}

theorem refl (w : World) : SameBooks w w := ⟨rfl, rfl, rfl⟩

theorem trans (first : SameBooks w w') (second : SameBooks w' w'') : SameBooks w w'' :=
  ⟨second.vars.trans first.vars, second.raised.trans first.raised,
    second.countdown.trans first.countdown⟩

end World.SameBooks

theorem Condition.sameBooks_holds (condition : Condition) (owner : ObjectId) (w : World) :
    w.SameBooks (condition.holds owner w).2 := by
  cases condition <;> exact ⟨rfl, rfl, rfl⟩

theorem World.sameBooks_wakes (t : Task) (w : World) : w.SameBooks (t.wakes w).2.2 := by
  unfold Task.wakes
  split
  · exact .refl w
  · exact .refl w
  · rename_i condition _ _
    have held := condition.sameBooks_holds t.owner w
    split
    · exact .refl w
    · split <;> simp_all only

def Variables.write (v : Variables) : Option (String × Float) → Variables
  | some (name, value) => v.set name value
  | none => v

namespace Instruction

def written? (i : Instruction) (w : World) : Option (String × Float) :=
  match i.command with
  | .setVar name value => some (name, value)
  | .changeVar name amount => some (name, w.vars.get name + amount)
  | .resetVar name => some (name, Variables.startingValue name)
  | .damage amount => some ("health", w.vars.get "health" + -amount)
  | .heal amount => some ("health", Scalar.smaller (w.vars.get "health" + amount) mostHealth)
  | .addScore amount => some ("score", w.vars.get "score" + amount)
  | .collectItem => some ("coins", w.vars.get "coins" + 1)
  | .loseLife => some ("lives", w.vars.get "lives" + -1)
  | .startTimer seconds => some ("timer", Scalar.ceil seconds)
  | _ => none

def starts? (i : Instruction) : Option Float :=
  match i.command with
  | .startTimer seconds => some seconds
  | _ => none

variable (i : Instruction) (owner : ObjectId) (program : Program) (w : World)

theorem vars_execute : (i.execute owner program w).2.vars = w.vars.write (i.written? w) := by
  obtain ⟨opcode, arguments, kind, command, children, elseChildren⟩ := i
  have drained (name : String) (amount : Float) (event : Event) :
      (w.drain name amount event).vars = w.vars.change name (-amount) := by
    unfold World.drain
    dsimp only
    split <;> rfl
  cases command with
  | damage amount => exact drained "health" amount .healthZero
  | loseLife => exact drained "lives" 1 .livesZero
  | say text seconds =>
    simp only [execute, World.speak]
    split <;> rfl
  | duplicate =>
    simp only [execute, World.duplicate]
    split <;> rfl
  | destroy =>
    simp only [execute, World.removeObject]
    split <;> rfl
  | setVar | changeVar | resetVar | showVar | playSound | playTone | broadcast | showMessage
  | spawnObject | heal | addScore | collectItem | defeatEnemy | startTimer => rfl
  | _ => exact (quiet_execute _ owner program w id).vars

theorem countdown_execute :
    (i.execute owner program w).2.countdown = i.starts?.or w.countdown := by
  obtain ⟨opcode, arguments, kind, command, children, elseChildren⟩ := i
  have asked (condition : Condition) : (condition.holds owner w).2.countdown = w.countdown :=
    (condition.sameBooks_holds owner w).countdown
  have drained (name : String) (amount : Float) (event : Event) :
      (w.drain name amount event).countdown = w.countdown := by
    unfold World.drain
    dsimp only
    split <;> rfl
  cases command with
  | damage amount => exact drained "health" amount .healthZero
  | loseLife => exact drained "lives" 1 .livesZero
  | setSpawnPoint =>
    simp only [execute, World.spawnAbove]
    split <;> rfl
  | startEffect plan =>
    simp only [execute, World.startEffect]
    split <;> rfl
  | gravity =>
    simp only [execute, World.startGravity]
    split
    · rfl
    · split <;> rfl
  | particles rgb count =>
    simp only [execute, World.startBurst]
    split <;> rfl
  | glide target seconds relative =>
    simp only [execute, World.glide]
    split
    · rfl
    · split <;> rfl
  | say text seconds =>
    simp only [execute, World.speak]
    split <;> rfl
  | duplicate =>
    simp only [execute, World.duplicate]
    split <;> rfl
  | destroy =>
    simp only [execute, World.removeObject]
    split <;> rfl
  | waitUntil condition | ifThen condition | ifElse condition =>
    have asked := asked condition
    simp only [execute, starts?, Option.none_or]
    split <;> simp_all only
  | repeatTimes count =>
    simp only [execute]
    split <;> rfl
  | call name =>
    simp only [execute]
    split <;> rfl
  | _ => rfl

end Instruction
end BlockStage
