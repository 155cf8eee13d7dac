import BlockStage.Proofs.Scene.Ids

/-! Scenes in which every number names one object at most: what a change of one object does to the
list of all of them. -/

namespace BlockStage.Scene

def only (s : Scene) (id : ObjectId) : Scene := { s with objects := s.objects.filter (·.id = id) }

theorem ids_only (s : Scene) (id : ObjectId) : (s.only id).ids = s.ids.filter (· = id) := by
  rw [ids, ids, only, List.filter_map]
  rfl

theorem find?_only (s : Scene) {id : ObjectId} : (s.only id).find? id = s.find? id := by
  simp only [find?, only, List.find?_filter, and_self, decide_eq_true_eq]

/-! ### Objects of other numbers -/

section Others

variable {id : ObjectId} {objects : List SceneObject}

theorem ne_of_not_mem (missing : id ∉ objects.map (·.id)) : ∀ o ∈ objects, o.id ≠ id :=
  fun o there same => missing (List.mem_map.2 ⟨o, there, same⟩)

theorem map_of_ne (other : ∀ o ∈ objects, o.id ≠ id) (f : SceneObject → SceneObject) :
    (objects.map fun o => if o.id = id then f o else o) = objects :=
  (List.map_congr_left fun o there => if_neg (other o there)).trans (List.map_id' _)

theorem modifyFirst_of_not_mem (f : SceneObject → SceneObject)
    (missing : id ∉ objects.map (·.id)) : modifyFirst id f objects = objects := by
  induction objects with
  | nil => rfl
  | cons o rest ih =>
    rw [List.map_cons, List.mem_cons, not_or] at missing
    rw [modifyFirst, if_neg (Ne.symm missing.1), ih missing.2]

end Others

variable {s : Scene} {id : ObjectId}

theorem modify_of_find? {o : SceneObject} (found : s.find? id = some o)
    (f : SceneObject → SceneObject) : (s.modify id fun _ => f o) = s.modify id f := by
  obtain ⟨objects, nextId, spawnPoint⟩ := s
  simp only [modify, find?] at found ⊢
  congr 1
  induction objects with
  | nil => contradiction
  | cons first rest ih =>
    by_cases same : first.id = id
    · obtain rfl : first = o := by simpa [List.find?_cons, same] using found
      simp only [modifyFirst, same, if_true]
    · simp only [modifyFirst, same, if_false]
      rw [ih (by simpa [List.find?_cons, same] using found)]

/-! ### Changes of one object -/

variable (distinct : s.ids.Nodup)

include distinct

theorem objects_modify (f : SceneObject → SceneObject) :
    (s.modify id f).objects = s.objects.map fun o => if o.id = id then f o else o := by
  obtain ⟨objects, nextId, spawnPoint⟩ := s
  simp only [modify, ids] at distinct ⊢
  induction objects with
  | nil => rfl
  | cons o rest ih =>
    obtain ⟨missing, distinct⟩ := List.nodup_cons.1 distinct
    rw [modifyFirst, List.map_cons]
    split
    · rename_i same
      -- No other object has that number.
      rw [map_of_ne (ne_of_not_mem (same ▸ missing))]
    · rw [ih distinct]

end BlockStage.Scene
