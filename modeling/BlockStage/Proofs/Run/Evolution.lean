import BlockStage.Proofs.Scene.Ids
import BlockStage.Run.Execute

/-! What a task's own work can do to the world: the run goes on under the same constants, and no
object goes away unless the task destroys its owner. -/

namespace BlockStage

structure Evolves (w w' : World) : Prop where
  running : w'.running = w.running
  config : w'.config = w.config

/-- Work that takes no object away. -/
structure Grows (w w' : World) : Prop extends Evolves w w' where
  kept : ∀ id ∈ w.scene.ids, id ∈ w'.scene.ids

namespace Evolves

variable {w w' w'' : World}

protected theorem refl (w : World) : Evolves w w := ⟨rfl, rfl⟩

protected theorem trans (first : Evolves w w') (second : Evolves w' w'') : Evolves w w'' where
  running := second.running.trans first.running
  config := second.config.trans first.config

end Evolves

namespace Grows

variable {w w' w'' : World}

theorem of_ids (running : w'.running = w.running) (config : w'.config = w.config)
    (ids : w'.scene.ids = w.scene.ids) : Grows w w' where
  running := running
  config := config
  kept _ h := ids ▸ h

protected theorem refl (w : World) : Grows w w := of_ids rfl rfl rfl

protected theorem trans (first : Grows w w') (second : Grows w' w'') : Grows w w'' where
  toEvolves := first.toEvolves.trans second.toEvolves
  kept id h := second.kept id (first.kept id h)

end Grows

/-! ### Work by which no object comes or goes -/

def Notice.handed? : Notice → Option ObjectId
  | .spawned id => some id
  | _ => none

/-- No object comes or goes. Effects may be started, on objects that are there, and may end. -/
structure Calm (w w' : World) : Prop where
  running : w'.running = w.running
  config : w'.config = w.config
  ids : w'.scene.ids = w.scene.ids
  nextId : w'.scene.nextId = w.scene.nextId
  targets : ∀ record ∈ w'.effects.records,
    record ∈ w.effects.records ∨ record.target ∈ w.scene.ids
  told : ∃ told, w'.notices.toList = w.notices.toList ++ told ∧ ∀ n ∈ told, n.handed? = none

namespace Calm

variable {w w' w'' : World}

theorem of_effects (running : w'.running = w.running) (config : w'.config = w.config)
    (ids : w'.scene.ids = w.scene.ids) (nextId : w'.scene.nextId = w.scene.nextId)
    (notices : w'.notices = w.notices)
    (targets : ∀ record ∈ w'.effects.records,
      record ∈ w.effects.records ∨ record.target ∈ w.scene.ids) : Calm w w' :=
  ⟨running, config, ids, nextId, targets, [], by rw [notices, List.append_nil], by simp⟩

theorem of_same (running : w'.running = w.running) (config : w'.config = w.config)
    (ids : w'.scene.ids = w.scene.ids) (nextId : w'.scene.nextId = w.scene.nextId)
    (notices : w'.notices = w.notices) (effects : w'.effects = w.effects) : Calm w w' :=
  of_effects running config ids nextId notices fun _ h => .inl (effects ▸ h)

protected theorem refl (w : World) : Calm w w := of_same rfl rfl rfl rfl rfl rfl

protected theorem trans (first : Calm w w') (second : Calm w' w'') : Calm w w'' where
  running := second.running.trans first.running
  config := second.config.trans first.config
  ids := second.ids.trans first.ids
  nextId := second.nextId.trans first.nextId
  targets record hr := (second.targets record hr).elim (first.targets record)
    fun there => .inr (first.ids ▸ there)
  told := by
    obtain ⟨told, notices, none⟩ := first.told
    obtain ⟨told', notices', none'⟩ := second.told
    refine ⟨told ++ told', by rw [notices', notices, List.append_assoc], ?_⟩
    rw [List.forall_mem_append]
    exact ⟨none, none'⟩

theorem tells (h : Calm w w') {n : Notice} (other : n.handed? = none) : Calm w (w'.tell n) where
  running := h.running
  config := h.config
  ids := h.ids
  nextId := h.nextId
  targets := h.targets
  told := by
    obtain ⟨told, notices, none⟩ := h.told
    refine ⟨told ++ [n], ?_, ?_⟩
    · rw [World.tell, Queue.toList_push, notices, List.append_assoc]
    · simpa [or_imp, forall_and] using ⟨none, other⟩

theorem raises (h : Calm w w') (event : Event) : Calm w (w'.raise event) :=
  ⟨h.running, h.config, h.ids, h.nextId, h.targets, h.told⟩

theorem grows (h : Calm w w') : Grows w w' := .of_ids h.running h.config h.ids

end Calm

theorem Scene.mem_of_find? {s : Scene} {id : ObjectId} {o : SceneObject}
    (h : s.find? id = some o) : id ∈ s.ids :=
  List.mem_map.2 ⟨o, List.mem_of_find?_eq_some h, by simpa using List.find?_some h⟩

namespace World

variable (owner : ObjectId) (w : World)

theorem calm_modifyObject (id : ObjectId) {f : SceneObject → SceneObject}
    (hf : ∀ o : SceneObject, (f o).id = o.id) : Calm w (w.modifyObject id f) :=
  .of_same rfl rfl (Scene.ids_modify _ _ fun o h => (hf o).trans h) rfl rfl rfl

theorem calm_addEffect {o : SceneObject} (found : w.scene.find? owner = some o)
    (effect : Effect) : Calm w (w.addEffect owner effect).2 := by
  refine .of_effects rfl rfl rfl rfl rfl fun record hr => ?_
  rcases List.mem_append.1 hr with old | new
  · exact .inl old
  · right
    rw [List.mem_singleton.1 new]
    exact Scene.mem_of_find? found

theorem calm_withVars (vars : Variables) (name : String) :
    Calm w ({ w with vars }.showVar name) := by
  have written : Calm w { w with vars } := .of_same rfl rfl rfl rfl rfl rfl
  exact written.tells rfl

theorem calm_spawnAbove : Calm w (w.spawnAbove owner) := by
  unfold spawnAbove
  split <;> exact .of_same rfl rfl rfl rfl rfl rfl

theorem calm_speak (text : String) (seconds : Float32) : Calm w (w.speak owner text seconds) := by
  unfold speak
  split
  · exact .refl w
  · exact (Calm.refl w).tells rfl

theorem calm_startEffect (plan : EffectPlan) : Calm w (w.startEffect owner plan) := by
  unfold startEffect
  split
  · exact .refl w
  · rename_i found
    exact w.calm_addEffect owner found _

theorem calm_startGravity : Calm w (w.startGravity owner) := by
  unfold startGravity
  split
  · exact .refl w
  · rename_i found
    split
    · exact .refl w
    · exact w.calm_addEffect owner found _

theorem calm_startBurst (rgb : Vec3) (count : Nat) : Calm w (w.startBurst owner rgb count) := by
  unfold startBurst
  split
  · exact .refl w
  · rename_i o found
    have burst := calm_addEffect owner
      { w with dice := (Particle.burst o.position rgb count w.dice).2 } found
      (.burst (Particle.burst o.position rgb count w.dice).1)
    exact ⟨burst.running, burst.config, burst.ids, burst.nextId, burst.targets, burst.told⟩

theorem calm_glide (target : Vec3) (seconds : Float) (relative : Bool) :
    Calm w (w.glide owner target seconds relative).2 := by
  unfold glide
  split
  · exact .refl w
  · rename_i found
    dsimp only
    split
    · exact w.calm_modifyObject owner fun _ => rfl
    · exact w.calm_addEffect owner found _

theorem calm_drain (name : String) (amount : Float) (event : Event) :
    Calm w (w.drain name amount event) := by
  have changed : Calm w (w.changeVar name (-amount)) := w.calm_withVars _ name
  unfold drain
  dsimp only
  split
  · exact changed.raises event
  · exact changed

theorem calm_hide : Calm w (w.hide owner) :=
  w.calm_modifyObject owner fun o => Edit.apply_id _ o

end World

theorem Condition.calm_holds (condition : Condition) (owner : ObjectId) (w : World) :
    Calm w (condition.holds owner w).2 := by
  cases condition <;> exact .of_same rfl rfl rfl rfl rfl rfl

/-! ### Objects that come and go -/

namespace World

variable (owner : ObjectId) (w : World)

theorem grows_withObject {scene : Scene} {id : ObjectId} (ids : scene.ids = w.scene.ids ++ [id])
    (notices : Queue Notice) : Grows w { w with scene, notices } where
  running := rfl
  config := rfl
  kept other h := by
    rw [ids]
    exact List.mem_append_left _ h

theorem grows_spawnObject (make : ObjectId → SceneObject) : Grows w (w.spawnObject make) :=
  w.grows_withObject (Scene.ids_spawn w.scene.allocate.2 (make ⟨w.scene.nextId⟩)) _

theorem duplicate_cases :
    (w.scene.contains owner = false ∧ w.duplicate owner = w) ∨
      ∃ scene : Scene, w.scene.contains owner = true ∧
        scene.ids = w.scene.ids ++ [⟨w.scene.nextId⟩] ∧ scene.nextId = w.scene.nextId + 1 ∧
        w.duplicate owner = { w with scene }.tell (.spawned ⟨w.scene.nextId⟩) := by
  unfold duplicate
  split
  · rename_i missing
    refine .inl ⟨?_, rfl⟩
    rw [← Bool.not_eq_true, Scene.contains_iff, ← Scene.find?_eq_none_iff]
    exact Option.map_eq_none_iff.1 missing
  · rename_i copy scene h
    obtain ⟨rfl, ids, nextId⟩ := Scene.eq_of_duplicate? h
    obtain ⟨o, found, -⟩ := Option.map_eq_some_iff.1 h
    exact .inr ⟨scene, (Scene.contains_iff _ _).2 (Scene.mem_of_find? found), ids, nextId, rfl⟩

theorem grows_duplicate : Grows w (w.duplicate owner) := by
  obtain ⟨-, same⟩ | ⟨scene, -, ids, -, made⟩ := w.duplicate_cases owner
  · rw [same]
    exact .refl w
  · rw [made]
    exact w.grows_withObject ids _

theorem evolves_removeObject : Evolves w (w.removeObject owner) := by
  unfold removeObject
  split
  · exact ⟨rfl, rfl⟩
  · exact .refl w

end World

namespace Frame

theorem grows_advance (frame : Frame) (owner : ObjectId) (w : World) :
    Grows w (frame.advance owner w).2 := by
  cases frame with
  | sequence rest => cases rest <;> exact .refl w
  | repeatTimes body left => cases left <;> exact .refl w
  | forever body resting => cases resting <;> exact .refl w
  | whileHolds condition body resting =>
    cases resting with
    | true => exact .refl w
    | false =>
      have held := (condition.calm_holds owner w).grows
      simp only [advance]
      split <;> simp_all
  | forEach counter next last body => cases next <;> exact .of_ids rfl rfl rfl

end Frame

namespace Instruction

variable (i : Instruction) (owner : ObjectId) (program : Program) (w : World)

/-- Three commands add or remove an object, all others do not. -/
theorem calm_execute
    (h : (∀ shape position, i.command ≠ .spawnObject shape position) ∧
      i.command ≠ .duplicate ∧ i.command ≠ .destroy) :
    Calm w (i.execute owner program w).2 := by
  obtain ⟨opcode, arguments, kind, command, children, elseChildren⟩ := i
  cases command with
  | edit change => exact w.calm_modifyObject owner fun o => change.apply_id o
  | lookAtPlayer => exact w.calm_modifyObject owner fun _ => rfl
  | glide target seconds relative => exact w.calm_glide owner target seconds relative
  | setSpawnPoint => exact w.calm_spawnAbove owner
  | say text seconds => exact w.calm_speak owner text seconds
  | startEffect plan => exact w.calm_startEffect owner plan
  | gravity => exact w.calm_startGravity owner
  | particles rgb count => exact w.calm_startBurst owner rgb count
  | stopParticles =>
    exact .of_effects rfl rfl rfl rfl rfl fun _ hr => .inl (List.mem_filter.1 hr).1
  | stopEffects =>
    exact .of_effects rfl rfl rfl rfl rfl fun _ hr => .inl (List.mem_filter.1 hr).1
  | waitUntil condition =>
    have held := condition.calm_holds owner w
    simp only [execute]
    split <;> simp_all only
  | repeatTimes count => simp only [execute]; split <;> exact .refl w
  | ifThen condition =>
    have held := condition.calm_holds owner w
    simp only [execute]
    split <;> simp_all only
  | ifElse condition =>
    have held := condition.calm_holds owner w
    simp only [execute]
    split <;> simp_all only
  | call name => simp only [execute]; split <;> exact .refl w
  | setVar name value => exact w.calm_withVars _ name
  | changeVar name amount => exact w.calm_withVars _ name
  | resetVar name => exact w.calm_withVars _ name
  | showVar name => exact (Calm.refl w).tells rfl
  | playSound name => exact (Calm.refl w).tells rfl
  | playTone frequency seconds => exact (Calm.refl w).tells rfl
  | showMessage text seconds => exact (Calm.refl w).tells rfl
  | spawnObject shape position => exact absurd rfl (h.1 shape position)
  | duplicate => exact absurd rfl h.2.1
  | destroy => exact absurd rfl h.2.2
  | damage amount => exact w.calm_drain "health" amount .healthZero
  | heal amount => exact w.calm_withVars _ "health"
  | addScore amount => exact w.calm_withVars _ "score"
  | collectItem =>
    have counted : Calm w (w.changeVar "coins" 1) := w.calm_withVars _ "coins"
    exact (counted.trans (World.calm_hide owner _)).raises _
  | defeatEnemy => exact (w.calm_hide owner).raises _
  | loseLife => exact w.calm_drain "lives" 1 .livesZero
  | startTimer seconds =>
    have started : Calm w { w with countdown := some seconds } := .of_same rfl rfl rfl rfl rfl rfl
    exact started.trans (World.calm_withVars _ _ "timer")
  | _ => exact .of_same rfl rfl rfl rfl rfl rfl

theorem grows_execute (h : i.command ≠ .destroy) : Grows w (i.execute owner program w).2 := by
  cases hc : i.command with
  | spawnObject shape position =>
    simp only [execute, hc]
    exact w.grows_spawnObject _
  | duplicate =>
    simp only [execute, hc]
    exact w.grows_duplicate owner
  | destroy => exact absurd hc h
  | _ => exact (calm_execute i owner program w (by simp [hc])).grows

theorem execute_destroy (h : i.command = .destroy) :
    i.execute owner program w = (.stop, w.removeObject owner) := by
  simp only [execute, h]

theorem evolves_execute : Evolves w (i.execute owner program w).2 := by
  by_cases h : i.command = .destroy
  · rw [execute_destroy i owner program w h]
    exact w.evolves_removeObject owner
  · exact (grows_execute i owner program w h).toEvolves

end Instruction
end BlockStage
