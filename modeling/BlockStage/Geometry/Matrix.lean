import BlockStage.Geometry.Vector

/-!
Four-by-four matrices by columns, and the two transforms of a perspective camera: into the view of
an eye that looks along its negative z-axis, and from there onto the screen with depths 0 to 1.
-/

namespace BlockStage

structure Mat4 where
  c0 : Vec4
  c1 : Vec4
  c2 : Vec4
  c3 : Vec4

namespace Vec4

instance : Add Vec4 where
  add a b := ⟨a.x + b.x, a.y + b.y, a.z + b.z, a.w + b.w⟩

instance : HMul Vec4 Float32 Vec4 where
  hMul v s := ⟨v.x * s, v.y * s, v.z * s, v.w * s⟩

/-- A point, ready to be transformed. -/
def ofPoint (p : Vec3) : Vec4 := ⟨p.x, p.y, p.z, 1⟩

def toList (v : Vec4) : List Float32 := [v.x, v.y, v.z, v.w]

end Vec4

namespace Mat4

def apply (m : Mat4) (v : Vec4) : Vec4 :=
  ((m.c0 * v.x + m.c1 * v.y) + m.c2 * v.z) + m.c3 * v.w

instance : Mul Mat4 where
  mul a b := ⟨a.apply b.c0, a.apply b.c1, a.apply b.c2, a.apply b.c3⟩

/-- All entries, column after column. -/
def toList (m : Mat4) : List Float32 :=
  m.c0.toList ++ m.c1.toList ++ m.c2.toList ++ m.c3.toList

def lookAt (eye center up : Vec3) : Mat4 :=
  let forward := (center - eye).normalize
  let side := (forward.cross up).normalize
  let above := side.cross forward
  { c0 := ⟨side.x, above.x, -forward.x, 0⟩
    c1 := ⟨side.y, above.y, -forward.y, 0⟩
    c2 := ⟨side.z, above.z, -forward.z, 0⟩
    c3 := ⟨-(eye.dot side), -(eye.dot above), eye.dot forward, 1⟩ }

/-- `fov` is the vertical field of view in radians, `aspect` the width over the height. -/
def perspective (fov aspect near far : Float32) : Mat4 :=
  let half := 0.5 * fov
  let h := half.cos / half.sin
  let w := h / aspect
  let r := far / (near - far)
  { c0 := ⟨w, 0, 0, 0⟩
    c1 := ⟨0, h, 0, 0⟩
    c2 := ⟨0, 0, r, -1⟩
    c3 := ⟨0, 0, r * near, 0⟩ }

end Mat4
end BlockStage
