import BlockStage.Run.Execute

/-! Quiet instructions. They have nothing to say: variables and messages stay as they are. What is
known of the user stays under all instructions, and so does the clock. -/

namespace BlockStage

structure World.Quiet (w w' : World) : Prop where
  vars : w'.vars = w.vars
  notices : w'.notices = w.notices
  raised : w'.raised = w.raised
  input : w'.input = w.input
  now : w'.now = w.now

theorem World.Quiet.input_now {w w' : World} (h : w.Quiet w') :
    w'.input = w.input ∧ w'.now = w.now := ⟨h.input, h.now⟩

theorem World.Quiet.refl (w : World) : w.Quiet w := ⟨rfl, rfl, rfl, rfl, rfl⟩

def Command.Speaks : Command → Prop
  | say _ _ | setVar _ _ | changeVar _ _ | resetVar _ | showVar _ | playSound _ | playTone _ _
  | broadcast _ | showMessage _ _ | spawnObject _ _ | duplicate | destroy | damage _ | heal _
  | addScore _ | collectItem | defeatEnemy | loseLife | startTimer _ => True
  | _ => False

namespace World

variable (owner : ObjectId) (w : World)

theorem quiet_spawnAbove : w.Quiet (w.spawnAbove owner) := by
  unfold spawnAbove
  split <;> exact ⟨rfl, rfl, rfl, rfl, rfl⟩

theorem quiet_startEffect (plan : EffectPlan) : w.Quiet (w.startEffect owner plan) := by
  unfold startEffect
  split <;> exact ⟨rfl, rfl, rfl, rfl, rfl⟩

theorem quiet_startGravity : w.Quiet (w.startGravity owner) := by
  unfold startGravity
  split
  · exact .refl w
  · split <;> exact ⟨rfl, rfl, rfl, rfl, rfl⟩

theorem quiet_startBurst (rgb : Vec3) (count : Nat) : w.Quiet (w.startBurst owner rgb count) := by
  unfold startBurst
  split <;> exact ⟨rfl, rfl, rfl, rfl, rfl⟩

theorem quiet_glide (target : Vec3) (seconds : Float) (relative : Bool) :
    w.Quiet (w.glide owner target seconds relative).2 := by
  unfold glide
  split
  · exact .refl w
  · dsimp only
    split <;> exact ⟨rfl, rfl, rfl, rfl, rfl⟩

end World

theorem Condition.quiet_holds (condition : Condition) (owner : ObjectId) (w : World) :
    w.Quiet (condition.holds owner w).2 := by
  cases condition <;> exact ⟨rfl, rfl, rfl, rfl, rfl⟩

theorem Instruction.quiet_execute (i : Instruction) (owner : ObjectId) (program : Program)
    (w : World) (silent : ¬ i.command.Speaks) : w.Quiet (i.execute owner program w).2 := by
  obtain ⟨opcode, arguments, kind, command, children, elseChildren⟩ := i
  cases command with
  | say | setVar | changeVar | resetVar | showVar | playSound | playTone | broadcast | showMessage
  | spawnObject | duplicate | destroy | damage | heal | addScore | collectItem | defeatEnemy
  | loseLife | startTimer => exact absurd trivial silent
  | setSpawnPoint => exact w.quiet_spawnAbove owner
  | startEffect plan => exact w.quiet_startEffect owner plan
  | gravity => exact w.quiet_startGravity owner
  | particles rgb count => exact w.quiet_startBurst owner rgb count
  | glide target seconds relative => exact w.quiet_glide owner target seconds relative
  | waitUntil condition =>
    have asked := condition.quiet_holds owner w
    simp only [execute]
    split <;> simp_all only
  | ifThen condition =>
    have asked := condition.quiet_holds owner w
    simp only [execute]
    split <;> simp_all only
  | ifElse condition =>
    have asked := condition.quiet_holds owner w
    simp only [execute]
    split <;> simp_all only
  | repeatTimes count =>
    simp only [execute]
    split <;> exact .refl w
  | call name =>
    simp only [execute]
    split <;> exact .refl w
  | _ => exact ⟨rfl, rfl, rfl, rfl, rfl⟩

theorem Instruction.input_now_execute (i : Instruction) (owner : ObjectId) (program : Program)
    (w : World) : (i.execute owner program w).2.input = w.input ∧
      (i.execute owner program w).2.now = w.now := by
  obtain ⟨opcode, arguments, kind, command, children, elseChildren⟩ := i
  have drained (name : String) (amount : Float) (event : Event) :
      (w.drain name amount event).input = w.input ∧ (w.drain name amount event).now = w.now := by
    unfold World.drain
    dsimp only
    split <;> exact ⟨rfl, rfl⟩
  cases command with
  | damage amount => exact drained "health" amount .healthZero
  | loseLife => exact drained "lives" 1 .livesZero
  | say text seconds =>
    simp only [execute, World.speak]
    split <;> exact ⟨rfl, rfl⟩
  | duplicate =>
    simp only [execute, World.duplicate]
    split <;> exact ⟨rfl, rfl⟩
  | destroy =>
    simp only [execute, World.removeObject]
    split <;> exact ⟨rfl, rfl⟩
  | setVar | changeVar | resetVar | showVar | playSound | playTone | broadcast | showMessage
  | spawnObject | heal | addScore | collectItem | defeatEnemy | startTimer => exact ⟨rfl, rfl⟩
  | _ => exact (quiet_execute _ owner program w id).input_now

end BlockStage
