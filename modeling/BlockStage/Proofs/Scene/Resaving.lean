import BlockStage.Proofs.Scene.Colours
import BlockStage.Proofs.Scene.Placing
import Mathlib.Data.List.Forall2

/-! A project that was loaded once is saved as it is from then on, and its scene differs from the
one that was loaded in nothing but its colours, each component of which is the nearest of 256. -/

namespace BlockStage

theorem Color.loaded_ofPacked (packed : Nat) (axis : Axis) :
    Loaded (axis.get (ofPacked packed)) := by
  have channel (shift : Nat) : Loaded (channel packed shift) :=
    .inl ⟨.ofNat ((packed >>> shift) % 256), by simp [Color.channel, ofByte]⟩
  cases axis <;> exact channel _

theorem Color.loaded_of_ofHex? {text : String} {rgb : Vec3} (h : ofHex? text = some rgb)
    (axis : Axis) : Loaded (axis.get rgb) := by
  unfold ofHex? at h
  dsimp only at h
  have packed {n : Option Nat} (h : n.map ofPacked = some rgb) : Loaded (axis.get rgb) := by
    obtain ⟨packed, -, rfl⟩ := Option.map_eq_some_iff.1 h
    exact loaded_ofPacked packed axis
  split at h
  · exact packed h
  · split at h
    · exact packed h
    · contradiction

namespace SavedObject

theorem color_placed (o : SavedObject) (id : ObjectId) :
    (o.placed id).color = (o.color.bind Color.ofHex?).getD ⟨0.29, 0.56, 0.85⟩ := rfl

theorem loaded_placed (o : SavedObject) (id : ObjectId) (axis : Axis) :
    Color.Loaded (axis.get (o.placed id).color) := by
  rw [color_placed]
  cases read : o.color.bind Color.ofHex? with
  | none => cases axis <;> exact .inr (by simp [Axis.get])
  | some rgb =>
    obtain ⟨text, -, h⟩ := Option.bind_eq_some_iff.1 read
    exact Color.loaded_of_ofHex? h axis

theorem color_placed_ofObject (o : SceneObject) (id : ObjectId) :
    ((ofObject o).placed id).color = Color.coarse o.color := by
  have written : (ofObject o).color = some (Color.toHex o.color) := rfl
  rw [color_placed, written, Option.bind_some, Color.ofHex?_toHex, Option.getD_some]

theorem ofObject_eq (o : SceneObject) :
    ofObject o = { ofObject o.uncoloured with color := some (Color.toHex o.color) } := rfl

theorem ofObject_placed_ofObject (o : SavedObject) (id : ObjectId) :
    ofObject ((ofObject (o.placed id)).placed id) = ofObject (o.placed id) := by
  rw [ofObject_eq ((ofObject (o.placed id)).placed id), placed_ofObject, color_placed_ofObject,
    Color.toHex_coarse, ← ofObject_eq]

theorem isNearest_placed_ofObject (o : SavedObject) (id : ObjectId) (axis : Axis) :
    Color.IsNearest (axis.get (o.placed id).color)
      (axis.get ((ofObject (o.placed id)).placed id).color) := by
  rw [color_placed_ofObject]
  have nearest := Color.isNearest_of_loaded (o.loaded_placed id axis)
  cases axis <;> exact nearest

end SavedObject

namespace Project

theorem map_ofObject_numbered (objects : List SavedObject) (first : BitVec 32) :
    (numbered first ((numbered first objects).map .ofObject)).map SavedObject.ofObject =
      (numbered first objects).map .ofObject := by
  induction objects generalizing first with
  | nil => rfl
  | cons o rest ih =>
    rw [numbered, List.map_cons, numbered, List.map_cons, SavedObject.ofObject_placed_ofObject, ih]

theorem forall₂_numbered (objects : List SavedObject) (first : BitVec 32) :
    List.Forall₂ (fun o o' : SceneObject => o'.uncoloured = o.uncoloured ∧
        ∀ axis : Axis, Color.IsNearest (axis.get o.color) (axis.get o'.color))
      (numbered first objects) (numbered first ((numbered first objects).map .ofObject)) := by
  induction objects generalizing first with
  | nil => exact .nil
  | cons o rest ih =>
    exact .cons ⟨o.placed_ofObject ⟨first⟩, o.isNearest_placed_ofObject ⟨first⟩⟩ (ih (first + 1))

/-- After one load a project is saved as it is. The objects and the spawn point of its scene are
those that were loaded, but each component of a colour is the nearest value that can be written. -/
theorem ofScene_toScene_ofScene_toScene (p : Project) :
    let q := ofScene p.toScene
    ofScene q.toScene = q ∧
    q.toScene.spawnPoint = p.toScene.spawnPoint ∧
    q.toScene.nextId = p.toScene.nextId ∧
    List.Forall₂ (fun o o' : SceneObject => o'.uncoloured = o.uncoloured ∧
        ∀ axis : Axis, Color.IsNearest (axis.get o.color) (axis.get o'.color))
      p.toScene.objects q.toScene.objects := by
  intro q
  have saved : q = ⟨(numbered 1 p.objects).map .ofObject, some (p.spawnPoint.getD ⟨0, 2, 5⟩)⟩ := by
    simp only [q, toScene_eq, ofScene]
  have length : q.objects.length = p.objects.length := by
    rw [saved, List.length_map, length_numbered]
  rw [toScene_eq q, toScene_eq p, length, saved]
  refine ⟨?_, rfl, rfl, forall₂_numbered p.objects 1⟩
  rw [ofScene, map_ofObject_numbered, Option.getD_some]

end Project
end BlockStage
