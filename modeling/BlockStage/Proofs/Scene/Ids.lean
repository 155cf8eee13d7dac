import BlockStage.Effect.Registry

/-! The numbers of a scene's objects, operation by operation. Presence is membership in `ids`. -/

namespace BlockStage.Scene

theorem contains_iff (s : Scene) (id : ObjectId) : s.contains id = true ↔ id ∈ s.ids := by
  simp only [contains, ids, List.any_eq_true, decide_eq_true_eq, List.mem_map]

theorem find?_eq_none_iff (s : Scene) (id : ObjectId) : s.find? id = none ↔ id ∉ s.ids := by
  simp [find?, ids]

@[simp] theorem ids_spawn (s : Scene) (o : SceneObject) : (s.spawn o).ids = s.ids ++ [o.id] := by
  simp [spawn, ids]

@[simp] theorem ids_despawn (s : Scene) (id : ObjectId) :
    (s.despawn id).ids = s.ids.erase id := by
  simp only [despawn, ids]
  induction s.objects with
  | nil => rfl
  | cons o rest ih =>
    by_cases h : o.id = id
    · simp [h]
    · simp [h, ih]

theorem ids_modify (s : Scene) (id : ObjectId) {f : SceneObject → SceneObject}
    (hf : ∀ o : SceneObject, o.id = id → (f o).id = id) : (s.modify id f).ids = s.ids := by
  simp only [modify, ids]
  induction s.objects with
  | nil => rfl
  | cons o rest ih =>
    by_cases h : o.id = id
    · simp [modifyFirst, h, hf o h]
    · simp [modifyFirst, h, ih]

theorem nextId_spawn_allocate (s : Scene) {o : SceneObject} (next : o.id = ⟨s.nextId⟩) :
    (s.allocate.2.spawn o).nextId = s.nextId + 1 := by
  simp only [spawn, allocate, next, ite_self]

theorem eq_of_duplicate? {s s' : Scene} {id copy : ObjectId}
    (h : s.duplicate? id = some (copy, s')) :
    copy = ⟨s.nextId⟩ ∧ s'.ids = s.ids ++ [⟨s.nextId⟩] ∧ s'.nextId = s.nextId + 1 := by
  simp only [duplicate?, Option.map_eq_some_iff] at h
  obtain ⟨o, -, h⟩ := h
  obtain ⟨rfl, rfl⟩ := Prod.mk.inj h
  exact ⟨rfl, ids_spawn _ _, s.nextId_spawn_allocate rfl⟩

/-! ### Looking an object up after a change -/

theorem find?_modify_self (s : Scene) (id : ObjectId) {f : SceneObject → SceneObject}
    (hf : ∀ o : SceneObject, o.id = id → (f o).id = id) :
    (s.modify id f).find? id = (s.find? id).map f := by
  simp only [modify, find?]
  induction s.objects with
  | nil => rfl
  | cons o rest ih =>
    by_cases h : o.id = id
    · simp [modifyFirst, h, hf o h]
    · simp [modifyFirst, h, ih]

theorem find?_modify_of_ne (s : Scene) {id other : ObjectId} (ne : other ≠ id)
    {f : SceneObject → SceneObject} (hf : ∀ o : SceneObject, o.id = other → (f o).id = o.id) :
    (s.modify other f).find? id = s.find? id := by
  simp only [modify, find?]
  induction s.objects with
  | nil => rfl
  | cons o rest ih =>
    by_cases h : o.id = other
    · simp [modifyFirst, h, hf o h, ne]
    · simp [modifyFirst, h, List.find?_cons, ih]

theorem find?_despawn_of_ne (s : Scene) {id other : ObjectId} (ne : other ≠ id) :
    (s.despawn other).find? id = s.find? id := by
  simp only [despawn, find?]
  induction s.objects with
  | nil => rfl
  | cons o rest ih =>
    by_cases h : o.id = other
    · simp [h, ne]
    · simp [h, List.find?_cons, ih]

theorem find?_spawn {s : Scene} {id : ObjectId} {o : SceneObject} (found : s.find? id = some o)
    (new : SceneObject) : (s.spawn new).find? id = some o :=
  List.find?_append.trans (by rw [show s.objects.find? _ = _ from found]; rfl)

end BlockStage.Scene
