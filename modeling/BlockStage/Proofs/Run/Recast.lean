import BlockStage.Run.Step

/-! What the work of a task does not depend on: the numbers of the effects, and the clock except
where something is put off. A step in a world with another clock and shifted numbers is the same
step, seen in that world. -/

namespace BlockStage

variable (k : Nat)

def RecordId.shift (id : RecordId) : RecordId := ⟨id.number + k⟩

def EffectRecord.shift (r : EffectRecord) : EffectRecord := { r with id := r.id.shift k }

def Registry.shift (r : Registry) : Registry := ⟨r.records.map (·.shift k), r.nextId + k⟩

def Wake.shift : Wake → Wake
  | effect id => effect (id.shift k)
  | other => other

def Flow.shift : Flow → Flow
  | suspend wake => suspend (wake.shift k)
  | other => other

@[simp] theorem Flow.shift_zero (flow : Flow) : flow.shift 0 = flow := by
  rcases flow with _ | ⟨_ | _ | _⟩ | _ | _ | _ <;> rfl

/-- The world under another clock, with the numbers of its effects shifted. -/
def World.recast (clock : Float → Float) (k : Nat) (w : World) : World :=
  { w with now := clock w.now, effects := w.effects.shift k }

namespace Registry

@[simp] theorem shift_zero (r : Registry) : r.shift 0 = r := by
  simp [shift, EffectRecord.shift, RecordId.shift]

theorem shift_add (r : Registry) (target : ObjectId) (effect : Effect) :
    (r.shift k).add target effect =
      ((r.add target effect).1.shift k, (r.add target effect).2.shift k) := by
  have next : r.nextId + k + 1 = r.nextId + 1 + k := by omega
  simp [add, shift, next, EffectRecord.shift, RecordId.shift]

theorem shift_contains (r : Registry) (id : RecordId) :
    (r.shift k).contains (id.shift k) = r.contains id := by
  simp only [contains, shift, List.any_map]
  refine congrArg (r.records.any ·) (funext fun record => ?_)
  obtain ⟨⟨number⟩, _, _, _⟩ := record
  obtain ⟨number'⟩ := id
  simp [EffectRecord.shift, RecordId.shift]

theorem shift_removeObject (r : Registry) (target : ObjectId) :
    (r.shift k).removeObject target = (r.removeObject target).shift k := by
  simp only [removeObject, shift, List.filter_map]
  rfl

theorem shift_stopParticles (r : Registry) (target : ObjectId) :
    (r.shift k).stopParticles target = (r.stopParticles target).shift k := by
  simp only [stopParticles, shift, List.filter_map]
  rfl

theorem shift_stepAll (view : StepView) (records : List EffectRecord) (scene : Scene) :
    stepAll view (records.map (·.shift k)) scene =
      ((stepAll view records scene).1, (stepAll view records scene).2.map (·.shift k)) := by
  induction records generalizing scene with
  | nil => rfl
  | cons record rest ih =>
    have stepped : stepRecord view (record.shift k) scene = ((stepRecord view record scene).1,
        (stepRecord view record scene).2.map (·.shift k)) := by
      simp only [stepRecord, EffectRecord.shift]
      split
      · rfl
      · simp only [Option.map_map]
        rfl
    simp only [List.map_cons, stepAll, stepped, ih, List.map_append, Option.toList_map]

theorem shift_step (r : Registry) (view : StepView) (scene : Scene) :
    (r.shift k).step view scene =
      ((r.step view scene).1, (r.step view scene).2.shift k) := by
  simp only [step, shift, shift_stepAll]

end Registry

namespace World

variable {k} (clock : Float → Float) (owner : ObjectId) (w : World)

@[simp] theorem recast_scene : (w.recast clock k).scene = w.scene := rfl

@[simp] theorem recast_vars : (w.recast clock k).vars = w.vars := rfl

@[simp] theorem recast_dice : (w.recast clock k).dice = w.dice := rfl

theorem recast_addEffect (id : ObjectId) (effect : Effect) :
    (w.recast clock k).addEffect id effect =
      ((w.addEffect id effect).1.shift k, (w.addEffect id effect).2.recast clock k) := by
  simp only [addEffect, recast, Registry.shift_add]

theorem recast_startEffect (plan : EffectPlan) :
    (w.recast clock k).startEffect owner plan = (w.startEffect owner plan).recast clock k := by
  simp only [startEffect, recast_scene]
  cases w.scene.find? owner with
  | none => rfl
  | some o => exact congrArg (·.2) (w.recast_addEffect clock owner _)

theorem recast_startGravity :
    (w.recast clock k).startGravity owner = (w.startGravity owner).recast clock k := by
  simp only [startGravity, recast_scene]
  cases w.scene.find? owner with
  | none => rfl
  | some o =>
    dsimp only
    split
    · rfl
    · exact congrArg (·.2) (w.recast_addEffect clock owner _)

theorem recast_startBurst (rgb : Vec3) (count : Nat) :
    (w.recast clock k).startBurst owner rgb count =
      (w.startBurst owner rgb count).recast clock k := by
  simp only [startBurst, recast_scene, recast_dice]
  cases w.scene.find? owner with
  | none => rfl
  | some o =>
    let burst := Particle.burst o.position rgb count w.dice
    exact congrArg (·.2) (recast_addEffect clock { w with dice := burst.2 } owner _)

theorem recast_glide (target : Vec3) (seconds : Float) (relative : Bool) :
    (w.recast clock k).glide owner target seconds relative =
      ((w.glide owner target seconds relative).1.shift k,
        (w.glide owner target seconds relative).2.recast clock k) := by
  simp only [glide, recast_scene]
  cases w.scene.find? owner with
  | none => rfl
  | some o =>
    dsimp only
    split
    · rfl
    · simp only [recast_addEffect]
      rfl

theorem recast_spawnAbove :
    (w.recast clock k).spawnAbove owner = (w.spawnAbove owner).recast clock k := by
  simp only [spawnAbove, recast_scene]
  cases w.scene.find? owner <;> rfl

theorem recast_speak (text : String) (seconds : Float32) :
    (w.recast clock k).speak owner text seconds = (w.speak owner text seconds).recast clock k := by
  simp only [speak, recast_scene]
  cases w.scene.find? owner <;> rfl

theorem recast_duplicate :
    (w.recast clock k).duplicate owner = (w.duplicate owner).recast clock k := by
  simp only [duplicate, recast_scene]
  cases w.scene.duplicate? owner <;> rfl

theorem recast_changeVar (name : String) (amount : Float) :
    (w.recast clock k).changeVar name amount = (w.changeVar name amount).recast clock k := rfl

theorem recast_drain (name : String) (amount : Float) (event : Event) :
    (w.recast clock k).drain name amount event = (w.drain name amount event).recast clock k := by
  simp only [drain, recast_changeVar, recast_vars, apply_ite (recast clock k)]
  rfl

theorem recast_removeObject :
    (w.recast clock k).removeObject owner = (w.removeObject owner).recast clock k := by
  have effects : (w.recast clock k).effects.removeObject owner =
      (w.effects.removeObject owner).shift k := w.effects.shift_removeObject k owner
  simp only [removeObject, recast_scene, effects, apply_ite (recast clock k)]
  rfl

theorem recast_holds (condition : Condition) :
    condition.holds owner (w.recast clock k) =
      ((condition.holds owner w).1, (condition.holds owner w).2.recast clock k) := by
  cases condition <;> rfl

end World

def Instruction.IsTimed (i : Instruction) : Prop :=
  match i.command with
  | .wait _ | .waitUntil _ => True
  | _ => False

def Frame.IsResting : Frame → Prop
  | forever _ resting => resting = true
  | whileHolds _ _ resting => resting = true
  | _ => False

variable {k} {clock : Float → Float}

theorem Instruction.execute_recast (i : Instruction) (owner : ObjectId) (program : Program)
    (w : World) (timeless : clock = id ∨ ¬ i.IsTimed) :
    i.execute owner program (w.recast clock k) =
      ((i.execute owner program w).1.shift k, (i.execute owner program w).2.recast clock k) := by
  obtain ⟨opcode, arguments, kind, command, children, elseChildren⟩ := i
  have enterBody_shift (body : List Instruction) : (enterBody body).shift k = enterBody body := by
    unfold enterBody
    split <;> rfl
  cases command with
  | glide target seconds relative => exact w.recast_glide clock owner target seconds relative
  | setSpawnPoint => simp only [execute, w.recast_spawnAbove clock owner]; rfl
  | say text seconds => simp only [execute, w.recast_speak clock owner]; rfl
  | startEffect plan => simp only [execute, w.recast_startEffect clock owner]; rfl
  | gravity => simp only [execute, w.recast_startGravity clock owner]; rfl
  | particles rgb count => simp only [execute, w.recast_startBurst clock owner]; rfl
  | stopParticles => simp only [execute, World.recast, Registry.shift_stopParticles]; rfl
  | stopEffects => simp only [execute, World.recast, Registry.shift_removeObject]; rfl
  | wait seconds =>
    obtain rfl := timeless.resolve_right fun untimed => untimed trivial
    rfl
  | waitUntil condition =>
    obtain rfl := timeless.resolve_right fun untimed => untimed trivial
    simp only [execute, w.recast_holds id owner condition]
    rcases condition.holds owner w with ⟨_ | _, w'⟩ <;> rfl
  | repeatTimes count => simp only [execute]; split <;> rfl
  | forever => simp only [execute]; split <;> rfl
  | ifThen condition =>
    simp only [execute, w.recast_holds clock owner condition]
    rcases condition.holds owner w with ⟨_ | _, w'⟩
    · rfl
    · simp only [enterBody_shift]
  | ifElse condition =>
    simp only [execute, w.recast_holds clock owner condition]
    rcases condition.holds owner w with ⟨_ | _, w'⟩ <;> simp only [enterBody_shift]
  | call name => simp only [execute]; split <;> rfl
  | duplicate => simp only [execute, w.recast_duplicate clock owner]; rfl
  | destroy => simp only [execute, w.recast_removeObject clock owner]; rfl
  | damage amount => simp only [execute, w.recast_drain clock]; rfl
  | loseLife => simp only [execute, w.recast_drain clock]; rfl
  | _ => rfl

theorem Frame.advance_recast (frame : Frame) (owner : ObjectId) (w : World)
    (timeless : clock = id ∨ ¬ frame.IsResting) :
    frame.advance owner (w.recast clock k) =
      ((frame.advance owner w).1, (frame.advance owner w).2.recast clock k) := by
  cases frame with
  | sequence rest => cases rest <;> rfl
  | repeatTimes body left => cases left <;> rfl
  | forever body resting =>
    cases resting with
    | true =>
      obtain rfl := timeless.resolve_right fun awake => awake rfl
      rfl
    | false => rfl
  | whileHolds condition body resting =>
    cases resting with
    | true =>
      obtain rfl := timeless.resolve_right fun awake => awake rfl
      rfl
    | false =>
      simp only [advance, w.recast_holds clock owner condition]
      rcases condition.holds owner w with ⟨_ | _, w'⟩ <;> rfl
  | forEach counter next last body => cases next <;> rfl

end BlockStage
