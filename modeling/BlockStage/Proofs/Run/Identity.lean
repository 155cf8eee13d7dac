import BlockStage.Proofs.Run.Keeping
import BlockStage.Proofs.Scene.Numbers

/-! Numbers of objects never go stale. Those that are handed out, as they are told, are the next
ones, one after the other; and as long as they last, each names at most one object, and every effect
names one that is there. -/

namespace BlockStage

def World.Targeted (w : World) : Prop :=
  ∀ record ∈ w.effects.records, record.target ∈ w.scene.ids

/-- Some work that hands out numbers: objects come under these numbers only, and the next number is
the one behind them. -/
structure Hands (handed : List ObjectId) (w w' : World) : Prop where
  successive : handed = ObjectId.successive w.scene.nextId handed.length
  nextId : w'.scene.nextId = w.scene.nextId + .ofNat 32 handed.length
  fresh : ∀ id ∈ w'.scene.ids, id ∈ w.scene.ids ∨ id ∈ handed
  targeted : w.Targeted → w'.Targeted
  sound : w.scene.Sound → w.scene.nextId.toNat + handed.length < ObjectId.limit → w'.scene.Sound

namespace Hands

variable {w w' w'' : World} {handed handed' : List ObjectId}

theorem nothing (ids : w'.scene.ids ⊆ w.scene.ids) (nextId : w'.scene.nextId = w.scene.nextId)
    (targeted : w.Targeted → w'.Targeted) (sound : w.scene.Sound → w'.scene.Sound) :
    Hands [] w w' where
  successive := rfl
  nextId := nextId.trans (BitVec.add_zero _).symm
  fresh _ there := .inl (ids there)
  targeted := targeted
  sound h _ := sound h

protected theorem refl (w : World) : Hands [] w w := nothing (List.Subset.refl _) rfl id id

theorem toNat_nextId (h : Hands handed w w')
    (room : w.scene.nextId.toNat + handed.length < ObjectId.limit) :
    w'.scene.nextId.toNat = w.scene.nextId.toNat + handed.length := by
  rw [h.nextId, ObjectId.toNat_add room]

protected theorem trans (first : Hands handed w w') (second : Hands handed' w' w'') :
    Hands (handed ++ handed') w w'' where
  successive := by
    rw [List.length_append, ← ObjectId.successive_append, ← first.nextId, ← first.successive,
      ← second.successive]
  nextId := by
    rw [second.nextId, first.nextId, List.length_append, BitVec.ofNat_add, BitVec.add_assoc]
  fresh id there := by
    rw [List.mem_append]
    rcases second.fresh id there with old | new
    · exact (first.fresh id old).imp_right .inl
    · exact .inr (.inr new)
  targeted h := second.targeted (first.targeted h)
  sound h room := by
    rw [List.length_append] at room
    have near : w.scene.nextId.toNat + handed.length < ObjectId.limit := by omega
    refine second.sound (first.sound h near) ?_
    rw [first.toNat_nextId near]
    omega

theorem nodup (h : Hands handed w w')
    (room : w.scene.nextId.toNat + handed.length < ObjectId.limit) : handed.Nodup := by
  rw [h.successive]
  exact ObjectId.nodup_successive _ (by omega)

theorem mem_iff (h : Hands handed w w')
    (room : w.scene.nextId.toNat + handed.length < ObjectId.limit) {id : ObjectId} :
    id ∈ handed ↔ w.scene.nextId.toNat ≤ id.number ∧ id.number < w'.scene.nextId.toNat := by
  rw [h.toNat_nextId room, ← ObjectId.mem_successive (Nat.le_of_lt room), ← h.successive]

theorem not_mem (h : Hands handed w w')
    (room : w.scene.nextId.toNat + handed.length < ObjectId.limit) {id : ObjectId}
    (used : id.number < w.scene.nextId.toNat) : id ∉ handed := fun again =>
  Nat.not_lt.2 ((h.mem_iff room).1 again).1 used

theorem stays_gone (h : Hands handed w w')
    (room : w.scene.nextId.toNat + handed.length < ObjectId.limit) {id : ObjectId}
    (gone : id ∉ w.scene.ids) (used : id.number < w.scene.nextId.toNat) : id ∉ w'.scene.ids :=
  fun back => (h.fresh id back).elim gone (h.not_mem room used)

end Hands

/-- Some work of a run. What it tells is told behind what waits to be told already. -/
structure Tends (w w' : World) : Prop where
  evolves : Evolves w w'
  told : ∃ told, w'.notices.toList = w.notices.toList ++ told ∧
    Hands (told.filterMap Notice.handed?) w w'

namespace Tends

variable {w w' w'' : World}

protected theorem refl (w : World) : Tends w w where
  evolves := .refl w
  told := ⟨[], (List.append_nil _).symm, .refl w⟩

protected theorem trans (first : Tends w w') (second : Tends w' w'') : Tends w w'' where
  evolves := first.evolves.trans second.evolves
  told := by
    obtain ⟨told, notices, hands⟩ := first.told
    obtain ⟨told', notices', hands'⟩ := second.told
    refine ⟨told ++ told', by rw [notices', notices, List.append_assoc], ?_⟩
    rw [List.filterMap_append]
    exact hands.trans hands'

end Tends

/-! ### From one world to another -/

namespace World

/-- The numbers that are handed out from one world of a run to another, as they are told. -/
def handedSince (w w' : World) : List ObjectId :=
  (w'.notices.toList.drop w.notices.toList.length).filterMap Notice.handed?

theorem handedSince_eq {w w' : World} {told : List Notice}
    (h : w'.notices.toList = w.notices.toList ++ told) :
    w.handedSince w' = told.filterMap Notice.handed? := by
  rw [handedSince, h, List.drop_left]

def NumbersLast (w w' : World) : Prop :=
  w.scene.nextId.toNat + (w.handedSince w').length < ObjectId.limit

/-- An object was in the scene, or could have been, and is not there any more. -/
def Left (w : World) (id : ObjectId) : Prop :=
  id ∉ w.scene.ids ∧ id.number < w.scene.nextId.toNat

end World

theorem Hands.left {w w' : World} {handed : List ObjectId} (h : Hands handed w w')
    (room : w.scene.nextId.toNat + handed.length < ObjectId.limit) {id : ObjectId}
    (left : w.Left id) : w'.Left id := by
  refine ⟨h.stays_gone room left.1 left.2, ?_⟩
  rw [h.toNat_nextId room]
  exact Nat.lt_of_lt_of_le left.2 (Nat.le_add_right _ _)

namespace Tends

variable {w w' w'' : World}

theorem hands (h : Tends w w') : Hands (w.handedSince w') w w' := by
  obtain ⟨told, notices, hands⟩ := h.told
  rwa [World.handedSince_eq notices]

theorem handedSince_trans (first : Tends w w') (second : Tends w' w'') :
    w.handedSince w'' = w.handedSince w' ++ w'.handedSince w'' := by
  obtain ⟨told, notices, -⟩ := first.told
  obtain ⟨told', notices', -⟩ := second.told
  have all : w''.notices.toList = w.notices.toList ++ (told ++ told') := by
    rw [notices', notices, List.append_assoc]
  rw [World.handedSince_eq all, World.handedSince_eq notices, World.handedSince_eq notices',
    List.filterMap_append]

theorem numbersLast (first : Tends w w') (second : Tends w' w'') (last : w.NumbersLast w'') :
    w.NumbersLast w' ∧ w'.NumbersLast w'' := by
  unfold World.NumbersLast at last ⊢
  rw [first.handedSince_trans second, List.length_append] at last
  have near : w.scene.nextId.toNat + (w.handedSince w').length < ObjectId.limit := by omega
  have nextId := first.hands.toNat_nextId near
  omega

theorem left (h : Tends w w') (last : w.NumbersLast w') {id : ObjectId} (left : w.Left id) :
    w'.Left id := h.hands.left last left

end Tends

/-- The course of a run, with all that is told in it or waits to be told at its end: the numbers
handed out before and in it are told one after the other. -/
structure Course (told : List Notice) (w w' : World) : Prop where
  evolves : Evolves w w'
  handed : ∃ handed, told.filterMap Notice.handed? =
    w.notices.toList.filterMap Notice.handed? ++ handed ∧ Hands handed w w'

theorem Tends.course {w w' : World} (h : Tends w w') : Course w'.notices.toList w w' where
  evolves := h.evolves
  handed := by
    obtain ⟨told, notices, hands⟩ := h.told
    exact ⟨_, by rw [notices, List.filterMap_append], hands⟩

namespace Course

variable {w w' w'' : World}

theorem drain (w : World) : Course w.notices.toList w { w with notices := {} } where
  evolves := ⟨rfl, rfl⟩
  handed :=
    ⟨[], (List.append_nil _).symm, .nothing (List.Subset.refl _) rfl id id⟩

protected theorem trans {drained told : List Notice}
    (first : Course (drained ++ w'.notices.toList) w w') (second : Course told w' w'') :
    Course (drained ++ told) w w'' where
  evolves := first.evolves.trans second.evolves
  handed := by
    obtain ⟨handed, before, hands⟩ := first.handed
    obtain ⟨handed', after, hands'⟩ := second.handed
    refine ⟨handed ++ handed', ?_, hands.trans hands'⟩
    rw [List.filterMap_append, after, ← List.append_assoc, ← List.filterMap_append, before,
      List.append_assoc]

end Course

/-! ### Work that leaves the objects where they are -/

theorem Calm.hands {w w' : World} (h : Calm w w') : Hands [] w w' := by
  refine .nothing (by rw [h.ids]; exact List.Subset.refl _) h.nextId
    (fun targeted record hr => ?_) fun sound => ⟨h.ids ▸ sound.nodup, ?_⟩
  · rw [h.ids]
    exact (h.targets record hr).elim (targeted record) id
  · rw [Scene.Numbered, h.ids, h.nextId]
    exact sound.below

theorem Calm.tends {w w' : World} (h : Calm w w') : Tends w w' where
  evolves := h.grows.toEvolves
  told := by
    obtain ⟨told, notices, none⟩ := h.told
    exact ⟨told, notices, List.filterMap_eq_nil_iff.2 none ▸ h.hands⟩

namespace Registry

theorem ids_stepRecord (view : StepView) (record : EffectRecord) (scene : Scene) :
    (stepRecord view record scene).1.ids = scene.ids ∧
      (stepRecord view record scene).1.nextId = scene.nextId ∧
      ∀ kept ∈ (stepRecord view record scene).2, kept.target ∈ scene.ids := by
  unfold stepRecord
  cases found : scene.find? record.target with
  | none => simp
  | some o =>
    have same : o.id = record.target := by simpa using List.find?_some found
    refine ⟨Scene.ids_modify _ _ fun _ _ => (Effect.step_id _ _ _ _).trans same, rfl, ?_⟩
    simp only [Option.mem_def, Option.map_eq_some_iff]
    rintro kept ⟨effect, -, rfl⟩
    exact Scene.mem_of_find? found

theorem ids_stepAll (view : StepView) (records : List EffectRecord) (scene : Scene) :
    (stepAll view records scene).1.ids = scene.ids ∧
      (stepAll view records scene).1.nextId = scene.nextId ∧
      ∀ kept ∈ (stepAll view records scene).2, kept.target ∈ scene.ids := by
  induction records generalizing scene with
  | nil => simp [stepAll]
  | cons record rest ih =>
    obtain ⟨ids, nextId, target⟩ := ids_stepRecord view record scene
    obtain ⟨ids', nextId', targets⟩ := ih (stepRecord view record scene).1
    refine ⟨ids'.trans ids, nextId'.trans nextId, fun kept hk => ?_⟩
    rcases List.mem_append.1 hk with now | later
    · exact target kept (Option.mem_toList.1 now)
    · exact ids ▸ targets kept later

end Registry

theorem World.calm_advanceCountdown (w : World) (dt : Float) : Calm w (w.advanceCountdown dt) := by
  have counting (w : World) (countdown : Option Float) : Calm w { w with countdown } :=
    .of_same rfl rfl rfl rfl rfl rfl
  have ended (w : World) : Calm w ({ w with countdown := none }.raise .timerDone) :=
    (counting w none).raises .timerDone
  have shown (w : World) (value : Float) : Calm w (w.setVar "timer" value) :=
    w.calm_withVars _ "timer"
  unfold advanceCountdown
  split
  · exact .refl w
  · rename_i left _
    have counted := counting w (some (left - dt))
    dsimp only
    split <;> split
    · exact counted.trans (ended _)
    · exact (counted.trans (shown _ _)).trans (ended _)
    · exact counted
    · exact counted.trans (shown _ _)

theorem World.calm_stepEffects (w : World) (dt : Float32) : Calm w (w.stepEffects dt) := by
  obtain ⟨ids, nextId, targets⟩ := Registry.ids_stepAll
    ⟨dt, w.player.position, w.config.gravity⟩ w.effects.records w.scene
  exact .of_effects rfl rfl ids nextId rfl fun record hr => .inr (targets record hr)

/-! ### Objects that come and go -/

def Command.handed? (owner : ObjectId) (w : World) : Command → Option ObjectId
  | .spawnObject _ _ => some ⟨w.scene.nextId⟩
  | .duplicate => if w.scene.contains owner then some ⟨w.scene.nextId⟩ else none
  | _ => none

namespace World

variable (owner : ObjectId) (w : World)

theorem hands_withObject {scene : Scene} (ids : scene.ids = w.scene.ids ++ [⟨w.scene.nextId⟩])
    (nextId : scene.nextId = w.scene.nextId + 1) (notices : Queue Notice) :
    Hands [⟨w.scene.nextId⟩] w { w with scene, notices } where
  successive := (ObjectId.successive_one _).symm
  nextId := nextId
  fresh id there := by
    change id ∈ scene.ids at there
    rwa [ids, List.mem_append] at there
  targeted h record hr := by
    change record.target ∈ scene.ids
    rw [ids]
    exact List.mem_append_left _ (h record hr)
  sound sound room := by
    have more : scene.nextId.toNat = w.scene.nextId.toNat + 1 :=
      nextId ▸ ObjectId.toNat_succ room
    exact sound.add sound.below.unused ids (more ▸ Nat.le_succ _) (more ▸ Nat.lt_succ_self _)

theorem hands_spawnObject {make : ObjectId → SceneObject} (h : ∀ id, (make id).id = id) :
    Hands [⟨w.scene.nextId⟩] w (w.spawnObject make) := by
  refine w.hands_withObject ?_ (w.scene.nextId_spawn_allocate (h _)) _
  rw [Scene.ids_spawn, h]
  rfl

theorem hands_duplicate :
    Hands (Command.duplicate.handed? owner w).toList w (w.duplicate owner) := by
  obtain ⟨missing, same⟩ | ⟨scene, there, ids, nextId, made⟩ := w.duplicate_cases owner
  · rw [same, Command.handed?, missing]
    exact .refl w
  · rw [made, Command.handed?, if_pos there]
    exact w.hands_withObject ids nextId _

theorem hands_removeObject : Hands [] w (w.removeObject owner) := by
  unfold removeObject
  split
  · have ids := w.scene.ids_despawn owner
    refine .nothing ?_ rfl (fun targeted record hr => ?_) fun sound => ⟨?_, fun id h => ?_⟩
    · change (w.scene.despawn owner).ids ⊆ _
      rw [ids]
      exact List.erase_subset
    · change record.target ∈ (w.scene.despawn owner).ids
      obtain ⟨old, other⟩ := List.mem_filter.1 hr
      rw [ids]
      exact (List.mem_erase_of_ne (by simpa using other)).2 (targeted record old)
    · change (w.scene.despawn owner).ids.Nodup
      rw [ids]
      exact sound.nodup.erase owner
    · change id ∈ (w.scene.despawn owner).ids at h
      rw [ids] at h
      exact sound.below id (List.mem_of_mem_erase h)
  · exact .refl w

theorem tends_removeObject : Tends w (w.removeObject owner) where
  evolves := w.evolves_removeObject owner
  told := by
    have hands := w.hands_removeObject owner
    unfold removeObject at hands ⊢
    split
    · rename_i there
      rw [if_pos there] at hands
      exact ⟨[.removed owner], Queue.toList_push _ _, hands⟩
    · exact (Tends.refl w).told

end World

/-! ### All work -/

namespace Instruction

variable (i : Instruction) (owner : ObjectId) (program : Program) (w : World)

theorem hands_execute :
    Hands (i.command.handed? owner w).toList w (i.execute owner program w).2 := by
  cases hc : i.command with
  | spawnObject shape position =>
    simp only [execute, hc]
    exact w.hands_spawnObject fun _ => rfl
  | duplicate =>
    simp only [execute, hc]
    exact w.hands_duplicate owner
  | destroy =>
    simp only [execute, hc]
    exact w.hands_removeObject owner
  | _ => exact (i.calm_execute owner program w (by simp [hc])).hands

/-- Every number that is handed out is told. -/
theorem told_execute : ∃ told, (i.execute owner program w).2.notices.toList =
    w.notices.toList ++ told ∧
      told.filterMap Notice.handed? = (i.command.handed? owner w).toList := by
  cases hc : i.command with
  | spawnObject shape position =>
    simp only [execute, hc]
    exact ⟨[.spawned ⟨w.scene.nextId⟩], Queue.toList_push _ _, rfl⟩
  | duplicate =>
    simp only [execute, hc]
    obtain ⟨missing, same⟩ | ⟨scene, there, -, -, made⟩ := w.duplicate_cases owner
    · rw [same, Command.handed?, missing]
      exact ⟨[], (List.append_nil _).symm, rfl⟩
    · rw [made, Command.handed?, if_pos there]
      exact ⟨[.spawned ⟨w.scene.nextId⟩], Queue.toList_push _ _, rfl⟩
  | destroy =>
    simp only [execute, hc, World.removeObject]
    split
    · exact ⟨[.removed owner], Queue.toList_push _ _, rfl⟩
    · exact ⟨[], (List.append_nil _).symm, rfl⟩
  | _ =>
    obtain ⟨told, notices, none⟩ := (i.calm_execute owner program w (by simp [hc])).told
    exact ⟨told, notices, List.filterMap_eq_nil_iff.2 none⟩

theorem tends_execute : Tends w (i.execute owner program w).2 where
  evolves := i.evolves_execute owner program w
  told := by
    obtain ⟨told, notices, handed⟩ := i.told_execute owner program w
    exact ⟨told, notices, handed ▸ i.hands_execute owner program w⟩

end Instruction

theorem kept_tends : Kept Tends where
  refl := .refl
  trans := .trans
  execute := Instruction.tends_execute

/-! ### Whom it concerns -/

/-- No other object, and no effect on another object, is any different afterwards. -/
structure Concerns (owner : ObjectId) (w w' : World) : Prop where
  objects : ∀ other ∈ w.scene.ids, other ≠ owner → w'.scene.find? other = w.scene.find? other
  effects : w'.effects.records.filter (·.target ≠ owner) =
    w.effects.records.filter (·.target ≠ owner)

namespace Concerns

variable {owner : ObjectId} {w w' : World}

theorem of_same (scene : w'.scene = w.scene) (effects : w'.effects = w.effects) :
    Concerns owner w w' :=
  ⟨fun _ _ _ => by rw [scene], by rw [effects]⟩

theorem of_modify {f : SceneObject → SceneObject} (hf : ∀ o : SceneObject, (f o).id = o.id) :
    Concerns owner w (w.modifyObject owner f) :=
  ⟨fun _ _ ne => Scene.find?_modify_of_ne _ ne.symm fun o _ => hf o, rfl⟩

theorem of_add {dice : Dice} (effect : Effect) :
    Concerns owner w ({ w with dice }.addEffect owner effect).2 :=
  ⟨fun _ _ _ => rfl, by simp [World.addEffect, Registry.add]⟩

theorem of_spawn {o : SceneObject} {nextId : BitVec 32}
    (scene : w'.scene = { w.scene with nextId }.spawn o) (effects : w'.effects = w.effects) :
    Concerns owner w w' := by
  refine ⟨fun other there _ => ?_, by rw [effects]⟩
  obtain ⟨found, h⟩ := Option.ne_none_iff_exists'.1 fun h =>
    (w.scene.find?_eq_none_iff other).1 h there
  rw [h, scene]
  exact Scene.find?_spawn h o

end Concerns

theorem World.concerns_removeObject (owner : ObjectId) (w : World) :
    Concerns owner w (w.removeObject owner) := by
  unfold removeObject
  split
  · refine ⟨fun other _ ne => Scene.find?_despawn_of_ne _ ne.symm, ?_⟩
    simp [tell, Registry.removeObject, List.filter_filter]
  · exact .of_same rfl rfl

theorem Registry.find?_stepRecord (view : StepView) (record : EffectRecord) (scene : Scene)
    {other : ObjectId} (ne : other ≠ record.target) :
    (stepRecord view record scene).1.find? other = scene.find? other := by
  unfold stepRecord
  split
  · rfl
  · rename_i o found
    have same : o.id = record.target := by simpa using List.find?_some found
    exact Scene.find?_modify_of_ne _ ne.symm fun o' ho' => by rw [Effect.step_id, same, ho']

theorem Instruction.concerns_execute (i : Instruction) (owner : ObjectId) (program : Program)
    (w : World) : Concerns owner w (i.execute owner program w).2 := by
  have checked (condition : Condition) : Concerns owner w (condition.holds owner w).2 := by
    cases condition <;> exact .of_same rfl rfl
  have hidden : Concerns owner w (w.hide owner) := .of_modify fun o => Edit.apply_id _ o
  obtain ⟨opcode, arguments, kind, command, children, elseChildren⟩ := i
  cases command with
  | edit change => exact .of_modify fun o => change.apply_id o
  | lookAtPlayer => exact .of_modify fun _ => rfl
  | glide target seconds relative =>
    simp only [execute, World.glide]
    split
    · exact .of_same rfl rfl
    · split
      · exact .of_modify fun _ => rfl
      · exact .of_add _
  | setSpawnPoint =>
    simp only [execute, World.spawnAbove]
    split <;> exact .of_same rfl rfl
  | say text seconds =>
    simp only [execute, World.speak]
    split <;> exact .of_same rfl rfl
  | startEffect plan =>
    simp only [execute, World.startEffect]
    split
    · exact .of_same rfl rfl
    · exact .of_add _
  | gravity =>
    simp only [execute, World.startGravity]
    split
    · exact .of_same rfl rfl
    · split
      · exact .of_same rfl rfl
      · exact .of_add _
  | particles rgb count =>
    simp only [execute, World.startBurst]
    split
    · exact .of_same rfl rfl
    · exact .of_add _
  | stopParticles =>
    refine ⟨fun _ _ _ => rfl, ?_⟩
    simp only [execute, Registry.stopParticles, List.filter_filter]
    exact List.filter_congr fun record _ => by by_cases h : record.target = owner <;> simp [h]
  | stopEffects =>
    exact ⟨fun _ _ _ => rfl, by simp [execute, Registry.removeObject, List.filter_filter]⟩
  | duplicate =>
    simp only [execute, World.duplicate]
    split
    · exact .of_same rfl rfl
    · rename_i copy scene h
      obtain ⟨o, -, made⟩ := Option.map_eq_some_iff.1 h
      obtain ⟨rfl, rfl⟩ := Prod.mk.inj made
      exact .of_spawn rfl rfl
  | destroy => exact w.concerns_removeObject owner
  | spawnObject shape position => exact .of_spawn rfl rfl
  | waitUntil condition =>
    have held := checked condition
    simp only [execute]
    split <;> simp_all only
  | ifThen condition =>
    have held := checked condition
    simp only [execute]
    split <;> simp_all only
  | ifElse condition =>
    have held := checked condition
    simp only [execute]
    split <;> simp_all only
  | repeatTimes count =>
    simp only [execute]
    split <;> exact .of_same rfl rfl
  | call name =>
    simp only [execute]
    split <;> exact .of_same rfl rfl
  | damage amount =>
    simp only [execute, World.drain]
    split <;> exact .of_same rfl rfl
  | loseLife =>
    simp only [execute, World.drain]
    split <;> exact .of_same rfl rfl
  | collectItem => exact ⟨hidden.objects, hidden.effects⟩
  | defeatEnemy => exact ⟨hidden.objects, hidden.effects⟩
  | _ => exact .of_same rfl rfl

end BlockStage
