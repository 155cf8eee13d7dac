import BlockStage.Block.Basic
import BlockStage.Geometry.Box
import BlockStage.Script.Command

/-!
The objects of a scene and the changes scripts make to a single one.
-/

namespace BlockStage

/-- The number an object is known by, a word of 32 bits. -/
structure ObjectId where
  word : BitVec 32
deriving DecidableEq

/-- The number as it is written and shown. -/
def ObjectId.number (id : ObjectId) : Nat := id.word.toNat

structure SceneObject where
  id : ObjectId
  name : String := ""
  shape : String := "box"
  /-- What touching the object counts as. -/
  category : String := "box"
  /-- The centre. -/
  position : Vec3 := .zero
  /-- Angles about the axes, in radians. -/
  rotation : Vec3 := .zero
  scale : Vec3 := .one
  /-- Half the size before scaling. -/
  halfExtents : Vec3 := .splat 0.5
  color : Vec3 := ⟨0.29, 0.56, 0.85⟩
  opacity : Float32 := 1
  visible : Bool := true
  /-- Whether the player bumps into the object. -/
  collidable : Bool := true
  /-- Whether the object is spared by gravity. -/
  anchored : Bool := false
  scripts : List Stack := []

namespace SceneObject

/-- The category follows the shape. -/
def withShape (o : SceneObject) (shape : String) : SceneObject :=
  { o with shape := shape, category := shape }

/-- Half the size in the world. Rotation is ignored. -/
def worldHalfExtents (o : SceneObject) : Vec3 := o.halfExtents.times (o.scale.map Float32.abs)

def box (o : SceneObject) : Box := .around o.position o.worldHalfExtents

end SceneObject

namespace Edit

def apply : Edit → SceneObject → SceneObject
  | move offset, o => { o with position := o.position + offset }
  | setPosition position, o => { o with position := position }
  | rotate offset, o => { o with rotation := o.rotation + offset }
  | setRotation rotation, o => { o with rotation := rotation }
  | setColor rgb, o => { o with color := rgb }
  | setOpacity opacity, o => { o with opacity := opacity }
  | setVisible visible, o => { o with visible := visible }
  | setScale scale, o => { o with scale := scale }
  | changeScale factor, o => { o with scale := o.scale * factor }

@[simp] theorem apply_id (e : Edit) (o : SceneObject) : (e.apply o).id = o.id := by
  cases e <;> rfl

end Edit
end BlockStage
