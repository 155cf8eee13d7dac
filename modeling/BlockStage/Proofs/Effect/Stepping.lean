import BlockStage.Proofs.Run.Identity
import BlockStage.Proofs.Scene.Distinct
import Mathlib.Data.List.Forall2

/-! One step of all effects, object by object. What becomes of an object and of its records is told
by its own records alone, in their order: each of them steps the object once, and is left unless it
is over. -/

namespace BlockStage

namespace Effect

def ends (effect : Effect) (elapsed : Float32) (view : StepView) : Bool :=
  match effect with
  | glide _ _ duration => 1 ≤ glideShare elapsed duration
  | burst particles => (Particle.advanceAll particles view.dt view.gravity).isEmpty
  | _ => false

theorem isSome_step (effect : Effect) (o : SceneObject) (elapsed : Float32) (view : StepView) :
    (effect.step o elapsed view).2.isSome = !effect.ends elapsed view := by
  cases effect with
  | glide start finish duration =>
    by_cases done : 1 ≤ glideShare elapsed duration <;> simp [step, ends, done]
  | burst particles =>
    by_cases out : (Particle.advanceAll particles view.dt view.gravity).isEmpty <;>
      simp [step, ends, out]
  | trail color particles cooldown =>
    simp only [step]
    split <;> rfl
  | _ => rfl

end Effect

namespace EffectRecord

/-- One step of a record on its object: the object, and the record unless it is over. -/
def stepOn (view : StepView) (record : EffectRecord) (o : SceneObject) :
    SceneObject × Option EffectRecord :=
  let elapsed := record.elapsed + view.dt
  let (o, effect) := record.effect.step o elapsed view
  (o, effect.map fun effect => { record with elapsed, effect })

/-- Whether the record is left by a step: its object is there, and its effect is not over. -/
def lasts (view : StepView) (scene : Scene) (record : EffectRecord) : Bool :=
  scene.contains record.target && !record.effect.ends (record.elapsed + view.dt) view

variable {view : StepView} {record kept : EffectRecord} {o : SceneObject}

@[simp] theorem stepOn_id : (record.stepOn view o).1.id = o.id := Effect.step_id _ _ _ _

theorem target_stepOn (h : kept ∈ (record.stepOn view o).2) : kept.target = record.target := by
  obtain ⟨effect, -, rfl⟩ := Option.map_eq_some_iff.1 h
  rfl

theorem isSome_stepOn :
    (record.stepOn view o).2.isSome = !record.effect.ends (record.elapsed + view.dt) view := by
  rw [stepOn, Option.isSome_map, Effect.isSome_step]

end EffectRecord

namespace Registry

def only (r : Registry) (id : ObjectId) : Registry :=
  { r with records := r.records.filter (·.target = id) }

def stepEach (view : StepView) :
    List EffectRecord → SceneObject → SceneObject × List EffectRecord
  | [], o => (o, [])
  | record :: rest, o =>
    let (o, kept) := record.stepOn view o
    let (o, rest) := stepEach view rest o
    (o, kept.toList ++ rest)

variable {view : StepView}

theorem stepEach_id (records : List EffectRecord) (o : SceneObject) :
    (stepEach view records o).1.id = o.id := by
  induction records generalizing o with
  | nil => rfl
  | cons record rest ih => exact (ih _).trans EffectRecord.stepOn_id

theorem stepRecord_eq (view : StepView) (record : EffectRecord) (scene : Scene) :
    stepRecord view record scene =
      (scene.modify record.target fun o => (record.stepOn view o).1,
        (scene.find? record.target).bind fun o => (record.stepOn view o).2) := by
  unfold stepRecord
  cases found : scene.find? record.target with
  | none =>
    have missing := (scene.find?_eq_none_iff _).1 found
    simp only [Scene.modify, Scene.modifyFirst_of_not_mem _ missing, Option.bind_none]
  | some o =>
    have same := Scene.modify_of_find? found fun o => (record.stepOn view o).1
    rw [← same]
    rfl

section Objects

variable {scene : Scene}

theorem stepEach_cons_filter (record : EffectRecord) (rest : List EffectRecord) (o : SceneObject) :
    (stepEach view ((record :: rest).filter (·.target = o.id)) o).1 =
      (stepEach view (rest.filter (·.target = o.id))
        (if o.id = record.target then (record.stepOn view o).1 else o)).1 := by
  by_cases own : o.id = record.target
  · rw [List.filter_cons_of_pos (by simpa using own.symm), if_pos own]
    rfl
  · rw [List.filter_cons_of_neg (by simpa using Ne.symm own), if_neg own]

theorem objects_stepAll (distinct : scene.ids.Nodup) (records : List EffectRecord) :
    (stepAll view records scene).1.objects = scene.objects.map fun o =>
      (stepEach view (records.filter (·.target = o.id)) o).1 := by
  induction records generalizing scene with
  | nil => exact (List.map_id' _).symm
  | cons record rest ih =>
    have stepped : (stepRecord view record scene).1.objects = scene.objects.map fun o =>
        if o.id = record.target then (record.stepOn view o).1 else o := by
      rw [stepRecord_eq, Scene.objects_modify distinct]
    have later := ih ((ids_stepRecord view record scene).1.symm ▸ distinct)
    rw [stepped, List.map_map] at later
    refine later.trans (List.map_congr_left fun o _ => ?_)
    rw [stepEach_cons_filter]
    simp only [Function.comp_apply]
    split
    · rw [EffectRecord.stepOn_id]
    · rfl

theorem find?_stepAll_of_idle (records : List EffectRecord) {id : ObjectId}
    (idle : ∀ record ∈ records, record.target ≠ id) :
    (stepAll view records scene).1.find? id = scene.find? id := by
  induction records generalizing scene with
  | nil => rfl
  | cons record rest ih =>
    obtain ⟨other, idle⟩ := List.forall_mem_cons.1 idle
    exact (ih idle).trans (find?_stepRecord view record scene other.symm)

theorem records_stepAll {o : SceneObject} (records : List EffectRecord)
    (found : scene.find? o.id = some o) :
    (stepAll view records scene).2.filter (·.target = o.id) =
      (stepEach view (records.filter (·.target = o.id)) o).2 := by
  induction records generalizing scene o with
  | nil => rfl
  | cons record rest ih =>
    have keeps (o : SceneObject) : (record.stepOn view o).1.id = o.id := EffectRecord.stepOn_id
    rw [stepAll, stepRecord_eq, List.filter_append]
    -- A record of the object itself changes what the later ones see; no other does.
    by_cases own : record.target = o.id
    · have kept : (record.stepOn view o).2.toList.filter (·.target = o.id) =
          (record.stepOn view o).2.toList :=
        List.filter_eq_self.2 fun record' there => by
          simpa [own] using EffectRecord.target_stepOn (Option.mem_toList.1 there)
      have stepped : (scene.modify record.target fun o => (record.stepOn view o).1).find?
          (record.stepOn view o).1.id = some (record.stepOn view o).1 := by
        rw [keeps, own, Scene.find?_modify_self _ _ fun o' ho' => (keeps o').trans ho', found]
        rfl
      have later := ih stepped
      rw [keeps] at later
      rw [List.filter_cons_of_pos (by simpa using own), stepEach, own, found, Option.bind_some,
        kept, ← own]
      exact congrArg _ (own ▸ later)
    · have gone : ((scene.find? record.target).bind fun o => (record.stepOn view o).2).toList.filter
          (·.target = o.id) = [] :=
        List.filter_eq_nil_iff.2 fun record' there => by
          obtain ⟨o', -, left⟩ := Option.bind_eq_some_iff.1 (Option.mem_toList.1 there)
          simpa [EffectRecord.target_stepOn left] using own
      rw [List.filter_cons_of_neg (by simpa using own), gone, List.nil_append]
      exact ih ((Scene.find?_modify_of_ne _ own fun o' _ => keeps o').trans found)

/-- Each record that lasts is left by a step of its own, on its own object; no other is left. -/
theorem forall₂_stepAll (records : List EffectRecord) :
    List.Forall₂ (fun record kept => ∃ o : SceneObject, o.id = record.target ∧
        (record.stepOn view o).2 = some kept)
      (records.filter (·.lasts view scene)) (stepAll view records scene).2 := by
  induction records generalizing scene with
  | nil => exact .nil
  | cons record rest ih =>
    have later := @ih (stepRecord view record scene).1
    have same : (fun record' : EffectRecord =>
        record'.lasts view (stepRecord view record scene).1) = (·.lasts view scene) := by
      funext record'
      rw [EffectRecord.lasts, EffectRecord.lasts]
      congr 1
      rw [Bool.eq_iff_iff, Scene.contains_iff, Scene.contains_iff, (ids_stepRecord _ _ _).1]
    rw [same, stepRecord_eq] at later
    rw [stepAll, stepRecord_eq]
    cases found : scene.find? record.target with
    | none =>
      have missing : scene.contains record.target = false := by
        simpa [← Scene.contains_iff] using (scene.find?_eq_none_iff _).1 found
      rw [List.filter_cons_of_neg (by simp [EffectRecord.lasts, missing])]
      exact later
    | some o =>
      have target : o.id = record.target := by simpa using List.find?_some found
      have there : scene.contains record.target = true :=
        (scene.contains_iff _).2 (Scene.mem_of_find? found)
      rw [Option.bind_some]
      cases left : (record.stepOn view o).2 with
      | none =>
        have ends : record.lasts view scene = false := by
          rw [EffectRecord.lasts, there, ← EffectRecord.isSome_stepOn (o := o), left]
          rfl
        rw [List.filter_cons_of_neg (by simp [ends])]
        exact later
      | some kept =>
        have lasts : record.lasts view scene = true := by
          rw [EffectRecord.lasts, there, ← EffectRecord.isSome_stepOn (o := o), left]
          rfl
        rw [List.filter_cons_of_pos lasts]
        exact .cons ⟨o, target, left⟩ later

/-! ### One object and its records alone -/

theorem objects_step_only (r : Registry) (id : ObjectId) (distinct : scene.ids.Nodup) :
    (r.step view scene).1.objects.filter (·.id = id) =
      ((r.only id).step view (scene.only id)).1.objects := by
  have alone : (scene.only id).ids.Nodup := Scene.ids_only scene id ▸ distinct.filter _
  have same (o : SceneObject) (there : o ∈ scene.objects.filter (·.id = id)) :
      (stepEach view (r.records.filter (·.target = o.id)) o).1 =
        (stepEach view ((r.only id).records.filter (·.target = o.id)) o).1 := by
    obtain rfl : o.id = id := by simpa using (List.mem_filter.1 there).2
    rw [only, List.filter_filter]
    simp only [Bool.and_self]
  rw [step, objects_stepAll distinct, List.filter_map, step, objects_stepAll alone]
  have kept : ((fun o : SceneObject => decide (o.id = id)) ∘ fun o =>
      (stepEach view (r.records.filter (·.target = o.id)) o).1) = fun o => decide (o.id = id) := by
    funext o
    rw [Function.comp_apply, stepEach_id]
  rw [kept]
  exact List.map_congr_left same

theorem records_step_only (r : Registry) (id : ObjectId) :
    (r.step view scene).2.records.filter (·.target = id) =
      ((r.only id).step view (scene.only id)).2.records := by
  have target (record : EffectRecord)
      (there : record ∈ ((r.only id).step view (scene.only id)).2.records) :
      record.target ∈ scene.ids ∧ record.target = id := by
    have := (ids_stepAll view (r.only id).records (scene.only id)).2.2 record there
    simpa [Scene.ids_only] using this
  cases found : scene.find? id with
  | none =>
    have missing : id ∉ scene.ids := (scene.find?_eq_none_iff _).1 found
    have none_left : ((r.only id).step view (scene.only id)).2.records = [] :=
      List.eq_nil_iff_forall_not_mem.2 fun record there =>
        missing ((target record there).2 ▸ (target record there).1)
    rw [none_left]
    refine List.filter_eq_nil_iff.2 fun record there own => missing ?_
    have : record.target = id := by simpa using own
    exact this ▸ (ids_stepAll view r.records scene).2.2 record there
  | some o =>
    obtain rfl : o.id = id := by simpa using List.find?_some found
    have all : ((r.only o.id).step view (scene.only o.id)).2.records.filter (·.target = o.id) =
        ((r.only o.id).step view (scene.only o.id)).2.records :=
      List.filter_eq_self.2 fun record there => by simpa using (target record there).2
    rw [← all, step, step, records_stepAll _ found,
      records_stepAll _ (scene.find?_only.trans found), only, List.filter_filter]
    simp only [Bool.and_self]

end Objects

/-- What one step makes of an object and of its records is what it would make of them if no other
object and no record of another object were there. An object steps through its own records in their
order; one without records stays as it is. The records that are left are those that last, each after
one step, and no record is left without its object. -/
theorem step_object_by_object (r : Registry) (view : StepView) (scene : Scene)
    (distinct : scene.ids.Nodup) :
    (∀ id,
        (r.step view scene).1.objects.filter (·.id = id) =
          ((r.only id).step view (scene.only id)).1.objects ∧
        (r.step view scene).2.records.filter (·.target = id) =
          ((r.only id).step view (scene.only id)).2.records) ∧
      (r.step view scene).1.objects = scene.objects.map (fun o =>
        (stepEach view (r.only o.id).records o).1) ∧
      (∀ id, (∀ record ∈ r.records, record.target ≠ id) →
        (r.step view scene).1.find? id = scene.find? id) ∧
      (∀ record ∈ (r.step view scene).2.records, record.target ∈ scene.ids) ∧
      List.Forall₂ (fun record kept => ∃ o : SceneObject, o.id = record.target ∧
          (record.stepOn view o).2 = some kept)
        (r.records.filter (·.lasts view scene)) (r.step view scene).2.records := by
  refine ⟨fun id => ⟨objects_step_only r id distinct, records_step_only r id⟩,
    objects_stepAll distinct _, fun id idle => find?_stepAll_of_idle _ idle,
    (ids_stepAll view r.records scene).2.2, forall₂_stepAll _⟩

/-- Two objects; the first spins and has come to the end of a glide, a third is missing. -/
theorem step_object_by_object_pair :
    let pair : Scene := { objects := [{ id := ⟨1⟩ }, { id := ⟨2⟩ }], nextId := 3 }
    let r : Registry :=
      { records := [⟨⟨0⟩, ⟨1⟩, 0, .spin .y 1⟩, ⟨⟨1⟩, ⟨3⟩, 0, .spin .y 1⟩,
          ⟨⟨2⟩, ⟨1⟩, 1, .glide .zero .one 0⟩], nextId := 3 }
    let view : StepView := ⟨0.5, .zero, 9.8⟩
    pair.ids.Nodup ∧
      (r.step view pair).2.records.filter (·.target = ⟨1⟩) =
        ((r.only ⟨1⟩).step view (pair.only ⟨1⟩)).2.records ∧
      (r.step view pair).1.find? ⟨2⟩ = pair.find? ⟨2⟩ ∧
      (r.step view pair).2.records.map (·.id) = [⟨0⟩] := by
  intro pair r view
  have steps := step_object_by_object r view pair (by decide)
  exact ⟨by decide, (steps.1 ⟨1⟩).2, steps.2.2.1 ⟨2⟩ (by decide), by decide⟩

end Registry
end BlockStage
