import BlockStage.Proofs.Run.Identity

/-! The records of effects, whatever is done to them: numbers are handed out upwards. And all that a
command can do to the objects and their effects. -/

namespace BlockStage

/-- A record before and after some steps. A glide stays what it was. -/
structure EffectRecord.Becomes (record record' : EffectRecord) : Prop where
  id : record'.id = record.id
  target : record'.target = record.target
  glide : ∀ start finish duration,
    record.effect = .glide start finish duration → record'.effect = .glide start finish duration

theorem EffectRecord.Becomes.refl (record : EffectRecord) : record.Becomes record :=
  ⟨rfl, rfl, fun _ _ _ h => h⟩

theorem EffectRecord.Becomes.trans {a b c : EffectRecord} (first : a.Becomes b)
    (second : b.Becomes c) : a.Becomes c :=
  ⟨second.id.trans first.id, second.target.trans first.target,
    fun start finish duration h => second.glide _ _ _ (first.glide start finish duration h)⟩

theorem Effect.glide_of_step {start finish : Vec3} {duration : Float32} {o : SceneObject}
    {elapsed : Float32} {view : StepView} {effect : Effect}
    (h : ((glide start finish duration).step o elapsed view).2 = some effect) :
    effect = .glide start finish duration := by
  simp only [step] at h
  split at h
  · contradiction
  · exact (Option.some.inj h).symm

namespace Registry

def Bounded (r : Registry) : Prop := ∀ record ∈ r.records, record.id.number < r.nextId

/-- Some work on the records: numbers are handed out upwards, and a record with an old number is
the one that had it before. -/
structure Continued (r r' : Registry) : Prop where
  nextId_le : r.nextId ≤ r'.nextId
  origin : ∀ record' ∈ r'.records, (∃ record ∈ r.records, record.Becomes record') ∨
    r.nextId ≤ record'.id.number ∧ record'.id.number < r'.nextId

namespace Continued

variable {r r' r'' : Registry}

theorem of_subset (nextId : r'.nextId = r.nextId) (fewer : r'.records ⊆ r.records) :
    Continued r r' :=
  ⟨Nat.le_of_eq nextId.symm, fun record h => .inl ⟨record, fewer h, .refl record⟩⟩

protected theorem refl (r : Registry) : Continued r r := .of_subset rfl fun _ h => h

protected theorem trans (first : Continued r r') (second : Continued r' r'') :
    Continued r r'' where
  nextId_le := Nat.le_trans first.nextId_le second.nextId_le
  origin record h := by
    rcases second.origin record h with ⟨record', h', becomes'⟩ | ⟨new, used⟩
    · rcases first.origin record' h' with ⟨record'', h'', becomes⟩ | ⟨new, used⟩
      · exact .inl ⟨record'', h'', becomes.trans becomes'⟩
      · rw [← becomes'.id] at new used
        exact .inr ⟨new, Nat.lt_of_lt_of_le used second.nextId_le⟩
    · exact .inr ⟨Nat.le_trans first.nextId_le new, used⟩

theorem add (r : Registry) (target : ObjectId) (effect : Effect) :
    Continued r (r.add target effect).2 where
  nextId_le := Nat.le_succ _
  origin record h := by
    rcases List.mem_append.1 h with old | new
    · exact .inl ⟨record, old, .refl record⟩
    · rw [List.mem_singleton.1 new]
      exact .inr ⟨Nat.le_refl _, Nat.lt_succ_self _⟩

theorem removeObject (r : Registry) (target : ObjectId) : Continued r (r.removeObject target) :=
  .of_subset rfl (List.filter_sublist.subset)

theorem stopParticles (r : Registry) (target : ObjectId) : Continued r (r.stopParticles target) :=
  .of_subset rfl (List.filter_sublist.subset)

theorem bounded (h : Continued r r') (bounded : r.Bounded) : r'.Bounded := by
  intro record' h'
  rcases h.origin record' h' with ⟨record, there, becomes⟩ | ⟨-, used⟩
  · rw [becomes.id]
    exact Nat.lt_of_lt_of_le (bounded record there) h.nextId_le
  · exact used

theorem contains_of_contains (h : Continued r r') {id : RecordId} (used : id.number < r.nextId)
    (live : r'.contains id = true) : r.contains id = true := by
  simp only [contains, List.any_eq_true, decide_eq_true_eq] at live ⊢
  obtain ⟨record', h', rfl⟩ := live
  rcases h.origin record' h' with ⟨record, there, becomes⟩ | ⟨new, -⟩
  · exact ⟨record, there, becomes.id.symm⟩
  · exact absurd new (Nat.not_le.2 used)

end Continued

theorem becomes_of_stepRecord {view : StepView} {record kept : EffectRecord} {scene : Scene}
    (h : (stepRecord view record scene).2 = some kept) : record.Becomes kept := by
  unfold stepRecord at h
  split at h
  · contradiction
  · obtain ⟨effect, stepped, rfl⟩ := Option.map_eq_some_iff.1 h
    refine ⟨rfl, rfl, fun start finish duration same => ?_⟩
    rw [same] at stepped
    exact Effect.glide_of_step stepped

theorem becomes_of_mem_stepAll {view : StepView} {records : List EffectRecord} {scene : Scene}
    {kept : EffectRecord} (h : kept ∈ (stepAll view records scene).2) :
    ∃ record ∈ records, record.Becomes kept := by
  induction records generalizing scene with
  | nil => simp [stepAll] at h
  | cons record rest ih =>
    rcases List.mem_append.1 h with now | later
    · exact ⟨record, List.mem_cons_self, becomes_of_stepRecord (Option.mem_toList.1 now)⟩
    · obtain ⟨record', h', becomes⟩ := ih later
      exact ⟨record', List.mem_cons_of_mem _ h', becomes⟩

theorem continued_step (r : Registry) (view : StepView) (scene : Scene) :
    Continued r (r.step view scene).2 :=
  ⟨Nat.le_refl _, fun _ h => .inl (becomes_of_mem_stepAll h)⟩

end Registry

theorem World.continued_removeObject (w : World) (id : ObjectId) :
    w.effects.Continued (w.removeObject id).effects := by
  unfold removeObject
  split
  · exact .removeObject w.effects id
  · exact .refl w.effects

/-! ### Commands -/

inductive Command.Places : Command → Prop
  | move (offset : Vec3) : Places (.edit (.move offset))
  | setPosition (position : Vec3) : Places (.edit (.setPosition position))
  | jump (target : Vec3) {seconds : Float} (relative : Bool) (at_once : seconds ≤ 0) :
      Places (.glide target seconds relative)

/-- All that a command can do to the objects and their effects. -/
inductive Command.Affects (owner : ObjectId) (w w' : World) : Command → Prop
  | leave (command : Command) (scene : w'.scene = w.scene) (effects : w'.effects = w.effects) :
      Affects owner w w' command
  | change (command : Command) (f : SceneObject → SceneObject) (id : ∀ o, (f o).id = o.id)
      (place : ¬ command.Places → ∀ o, (f o).position = o.position)
      (scene : w'.scene = w.scene.modify owner f) (effects : w'.effects = w.effects) :
      Affects owner w w' command
  | spawn (command : Command) (nextId : Nat) (o : SceneObject)
      (scene : w'.scene = { w.scene with nextId }.spawn o) (effects : w'.effects = w.effects) :
      Affects owner w w' command
  | start (command : Command) (effect : Effect) (scene : w'.scene = w.scene)
      (effects : w'.effects = (w.effects.add owner effect).2) : Affects owner w w' command
  | stopParticles (scene : w'.scene = w.scene)
      (effects : w'.effects = w.effects.stopParticles owner) : Affects owner w w' .stopParticles
  | stopEffects (scene : w'.scene = w.scene)
      (effects : w'.effects = w.effects.removeObject owner) : Affects owner w w' .stopEffects
  | destroy (scene : w'.scene = w.scene.despawn owner)
      (effects : w'.effects = w.effects.removeObject owner) : Affects owner w w' .destroy

theorem Command.Affects.continued {owner : ObjectId} {w w' : World} {command : Command}
    (h : command.Affects owner w w') : w.effects.Continued w'.effects := by
  cases h with
  | leave _ _ effects => exact effects ▸ .refl _
  | change _ _ _ _ _ effects => exact effects ▸ .refl _
  | spawn _ _ _ _ effects => exact effects ▸ .refl _
  | start _ effect _ effects => exact effects ▸ .add _ owner effect
  | stopParticles _ effects => exact effects ▸ .stopParticles _ owner
  | stopEffects _ effects => exact effects ▸ .removeObject _ owner
  | destroy _ effects => exact effects ▸ .removeObject _ owner

theorem Command.Affects.keeps_position {owner id : ObjectId} {w w' : World} {command : Command}
    (h : command.Affects owner w w') {o : SceneObject} (found : w.scene.find? id = some o)
    (unmoved : owner = id → ¬ command.Places ∧ command ≠ .destroy) :
    ∃ o', w'.scene.find? id = some o' ∧ o'.position = o.position := by
  cases h with
  | leave _ scene => exact ⟨o, scene ▸ found, rfl⟩
  | change _ f ids place scene =>
    rw [scene]
    by_cases own : owner = id
    · subst own
      refine ⟨f o, ?_, place (unmoved rfl).1 o⟩
      rw [Scene.find?_modify_self _ _ fun o h => (ids o).trans h, found]
      rfl
    · exact ⟨o, (Scene.find?_modify_of_ne _ own fun o _ => ids o).trans found, rfl⟩
  | spawn _ nextId new scene => exact ⟨o, scene ▸ Scene.find?_spawn found new, rfl⟩
  | start _ _ scene => exact ⟨o, scene ▸ found, rfl⟩
  | stopParticles scene => exact ⟨o, scene ▸ found, rfl⟩
  | stopEffects scene => exact ⟨o, scene ▸ found, rfl⟩
  | destroy scene =>
    have other : owner ≠ id := fun own => (unmoved own).2 rfl
    exact ⟨o, by rw [scene, Scene.find?_despawn_of_ne _ other, found], rfl⟩

theorem Instruction.affects_execute (i : Instruction) (owner : ObjectId) (program : Program)
    (w : World) : i.command.Affects owner w (i.execute owner program w).2 := by
  have checked (command : Command) (condition : Condition) :
      command.Affects owner w (condition.holds owner w).2 := by
    cases condition <;> exact .leave _ rfl rfl
  obtain ⟨opcode, arguments, kind, command, children, elseChildren⟩ := i
  cases command with
  | edit change =>
    refine .change _ _ (fun o => change.apply_id o) (fun placeless o => ?_) rfl rfl
    cases change with
    | move offset => exact absurd (.move offset) placeless
    | setPosition position => exact absurd (.setPosition position) placeless
    | _ => rfl
  | lookAtPlayer =>
    exact .change _ (World.faceTo w.player.position) (fun _ => rfl) (fun _ _ => rfl) rfl rfl
  | glide target seconds relative =>
    simp only [execute, World.glide]
    split
    · exact .leave _ rfl rfl
    · rename_i o _
      split
      · rename_i at_once
        let finish := if relative then o.position + target else target
        exact .change _ (fun o => { o with position := finish }) (fun _ => rfl)
          (fun placeless => absurd (.jump target relative at_once) placeless) rfl rfl
      · exact .start _ _ rfl rfl
  | startEffect plan =>
    simp only [execute, World.startEffect]
    split
    · exact .leave _ rfl rfl
    · exact .start _ _ rfl rfl
  | gravity =>
    simp only [execute, World.startGravity]
    split
    · exact .leave _ rfl rfl
    · split
      · exact .leave _ rfl rfl
      · exact .start _ _ rfl rfl
  | particles rgb count =>
    simp only [execute, World.startBurst]
    split
    · exact .leave _ rfl rfl
    · exact .start _ _ rfl rfl
  | stopParticles => exact .stopParticles rfl rfl
  | stopEffects => exact .stopEffects rfl rfl
  | destroy =>
    simp only [execute, World.removeObject]
    split
    · exact .destroy rfl rfl
    · exact .leave _ rfl rfl
  | spawnObject shape position => exact .spawn _ _ _ rfl rfl
  | duplicate =>
    simp only [execute, World.duplicate]
    split
    · exact .leave _ rfl rfl
    · rename_i copy scene h
      obtain ⟨o, -, made⟩ := Option.map_eq_some_iff.1 h
      obtain ⟨rfl, rfl⟩ := Prod.mk.inj made
      exact .spawn _ _ _ rfl rfl
  | setSpawnPoint =>
    simp only [execute, World.spawnAbove]
    split <;> exact .leave _ rfl rfl
  | say text seconds =>
    simp only [execute, World.speak]
    split <;> exact .leave _ rfl rfl
  | waitUntil condition =>
    have held := checked (.waitUntil condition) condition
    simp only [execute]
    split <;> simp_all only
  | ifThen condition =>
    have held := checked (.ifThen condition) condition
    simp only [execute]
    split <;> simp_all only
  | ifElse condition =>
    have held := checked (.ifElse condition) condition
    simp only [execute]
    split <;> simp_all only
  | repeatTimes count =>
    simp only [execute]
    split <;> exact .leave _ rfl rfl
  | call name =>
    simp only [execute]
    split <;> exact .leave _ rfl rfl
  | damage amount =>
    simp only [execute, World.drain]
    split <;> exact .leave _ rfl rfl
  | loseLife =>
    simp only [execute, World.drain]
    split <;> exact .leave _ rfl rfl
  | collectItem => exact .change _ _ (fun o => Edit.apply_id _ o) (fun _ _ => rfl) rfl rfl
  | defeatEnemy => exact .change _ _ (fun o => Edit.apply_id _ o) (fun _ _ => rfl) rfl rfl
  | _ => exact .leave _ rfl rfl

end BlockStage
