import BlockStage.Geometry.Vector
import BlockStage.Scalar.Order

/-!
Easing curves on `[0, 1]` and interpolation along them.
-/

namespace BlockStage

inductive Easing
  | linear
  /-- Slow at both ends, by squares. -/
  | slowEnds
deriving DecidableEq

namespace Easing

/-- The eased share of the way at share `t` of the time. -/
def apply (easing : Easing) (t : Float32) : Float32 :=
  let t := Scalar.clamp t 0 1
  match easing with
  | linear => t
  | slowEnds =>
    if t < 0.5 then 2 * t * t
    else
      let left := -2 * t + 2
      1 - left * left / 2

def mix (a b t : Float32) : Float32 := a + (b - a) * t

def mixPoints (a b : Vec3) (t : Float32) : Vec3 := a + (b - a) * t

/-- The point reached at share `t` of the time. -/
def between (easing : Easing) (a b : Vec3) (t : Float32) : Vec3 := mixPoints a b (easing.apply t)

end Easing
end BlockStage
