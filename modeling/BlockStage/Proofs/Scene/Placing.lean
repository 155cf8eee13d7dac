import BlockStage.Scene.Project

/-! The scene of a project, and what becomes of it when it is made a project and a scene again:
nothing changes but the colours, which are written in fewer digits. -/

namespace BlockStage

def SceneObject.uncoloured (o : SceneObject) : SceneObject := { o with color := .zero }

def Scene.uncoloured (s : Scene) : Scene := { s with objects := s.objects.map (·.uncoloured) }

theorem Stack.pruneEmpty_pruneEmpty (canvas : List Stack) :
    pruneEmpty (pruneEmpty canvas) = pruneEmpty canvas := by
  simp [pruneEmpty, List.filter_filter]

theorem Scalar.clamp_clamp (x : Float32) : clamp (clamp x 0 1) 0 1 = clamp x 0 1 := by
  by_cases low : x < 0
  · simp only [clamp, if_pos low]
    decide
  · by_cases high : 1 < x
    · simp only [clamp, if_neg low, if_pos high]
      decide
    · simp only [clamp, if_neg low, if_neg high]

namespace SavedObject

/-- The object as it comes into a scene. -/
def placed (o : SavedObject) (id : ObjectId) : SceneObject :=
  { o with scripts := Stack.pruneEmpty o.scripts }.toObject id

theorem placed_ofObject (o : SavedObject) (id : ObjectId) :
    ((ofObject (o.placed id)).placed id).uncoloured = (o.placed id).uncoloured := by
  -- A category is left out only if it is that of the shape.
  by_cases same : o.category.getD o.shape = o.shape <;>
    simp [placed, toObject, ofObject, SceneObject.uncoloured, same, Scalar.clamp_clamp,
      Stack.pruneEmpty_pruneEmpty]

end SavedObject

namespace Project

def numbered (first : BitVec 32) : List SavedObject → List SceneObject
  | [] => []
  | o :: rest => o.placed ⟨first⟩ :: numbered (first + 1) rest

theorem length_numbered (objects : List SavedObject) (first : BitVec 32) :
    (numbered first objects).length = objects.length := by
  induction objects generalizing first with
  | nil => rfl
  | cons o rest ih => simp [numbered, ih]

theorem toScene_eq (p : Project) :
    p.toScene =
      ⟨numbered 1 p.objects, 1 + .ofNat 32 p.objects.length, p.spawnPoint.getD ⟨0, 2, 5⟩⟩ := by
  have placed (objects : List SavedObject) (done : List SceneObject) (first : BitVec 32)
      (spawnPoint : Vec3) :
      objects.foldl place ⟨done, first, spawnPoint⟩ =
        ⟨done ++ numbered first objects, first + .ofNat 32 objects.length, spawnPoint⟩ := by
    induction objects generalizing done first with
    | nil => simp [numbered]
    | cons o rest ih =>
      have step : place ⟨done, first, spawnPoint⟩ o =
          ⟨done ++ [o.placed ⟨first⟩], first + 1, spawnPoint⟩ := by
        simp only [place, Scene.allocate, Scene.spawn]
        congr 1
        exact ite_self _
      rw [List.foldl_cons, step, ih, numbered, List.append_assoc, List.length_cons,
        BitVec.ofNat_add, BitVec.add_assoc, BitVec.add_comm (.ofNat 32 rest.length)]
      rfl
  exact placed p.objects [] 1 _

theorem toScene_ofScene_toScene (p : Project) :
    (ofScene p.toScene).toScene.uncoloured = p.toScene.uncoloured := by
  have again (objects : List SavedObject) (first : BitVec 32) :
      (numbered first ((numbered first objects).map .ofObject)).map (·.uncoloured) =
        (numbered first objects).map (·.uncoloured) := by
    induction objects generalizing first with
    | nil => rfl
    | cons o rest ih => simp [numbered, SavedObject.placed_ofObject, ih]
  simp [toScene_eq, ofScene, Scene.uncoloured, again, length_numbered]

end Project
end BlockStage
