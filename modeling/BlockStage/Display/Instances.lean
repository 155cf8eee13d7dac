import BlockStage.Effect.Registry

/-!
The flat buffers that are drawn: sixteen singles for each object of a scene, eight for each live
particle.
-/

namespace BlockStage.Display

/-- The number of the solid that a shape is drawn as. -/
def shapeCode (shape : String) : Float32 :=
  if shape = "sphere" then 1
  else if shape = "cylinder" then 2
  else if shape = "cone" then 3
  else if shape = "torus" then 4
  else if shape = "plane" then 5
  else 0

def objectFloats (o : SceneObject) : List Float32 :=
  [Scalar.ofNatSingle o.id.number, shapeCode o.shape]
    ++ o.position.toList ++ o.rotation.toList ++ o.scale.toList ++ o.color.toList
    ++ [o.opacity, if o.visible then 1 else 0]

def particleFloats (p : Particle) : List Float32 :=
  p.position.toList ++ [p.size] ++ p.color.toList ++ [p.opacity]

/-- One row for each thing that is drawn. -/
structure Instances where
  objects : List (List Float32) := []
  particles : List (List Float32) := []

namespace Instances

def ofScene (scene : Scene) (effects : Registry) : Instances where
  objects := scene.objects.map objectFloats
  particles := effects.particles.map particleFloats

end Instances
end BlockStage.Display
