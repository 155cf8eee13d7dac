import BlockStage.Geometry.Vector

/-!
Boxes along the world axes.
-/

namespace BlockStage

structure Box where
  min : Vec3
  max : Vec3

namespace Box

/-- The box that reaches `half` from its centre on every axis. -/
def around (center half : Vec3) : Box := ⟨center - half, center + half⟩

def center (b : Box) : Vec3 := (b.min + b.max) * (0.5 : Float32)

/-- Strict overlap on the two ground axes: touching sides do not count. -/
def overlapsGround (a b : Box) : Bool :=
  a.min.x < b.max.x && b.min.x < a.max.x && a.min.z < b.max.z && b.min.z < a.max.z

/-- Strict overlap on all three axes. -/
def intersects (a b : Box) : Bool :=
  a.overlapsGround b && a.min.y < b.max.y && b.min.y < a.max.y

end Box
end BlockStage
