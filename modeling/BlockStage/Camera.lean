import BlockStage.Easing
import BlockStage.Geometry.Matrix
import BlockStage.Player.Basic

/-!
The camera. It takes its place from the player and the control scheme, and projects points of the
world onto a viewport.
-/

namespace BlockStage

structure Camera where
  position : Vec3 := ⟨0, 2, 5⟩
  target : Vec3 := .zero
  /-- The vertical field of view in radians. -/
  fieldOfView : Float32 := 75 * (3.1415927 / 180)
  /-- Width over height of the viewport. -/
  aspect : Float32 := 16 / 9
  near : Float32 := 0.1
  far : Float32 := 1000
  /-- The share of the way to the player that is kept over a sixtieth of a second. -/
  smoothing : Float32 := 0.9

namespace Camera

def eyeHeight : Float32 := 0.7

def boomLength : Float32 := 6

def topDownHeight : Float32 := 20

def pointClickOffset : Vec3 := ⟨0, 10, 10⟩

/-- Takes its place; `keep` is the share of the old distance that stays. -/
def place (c : Camera) (p : Player) (keep : Float32) : Camera :=
  match p.scheme with
  | .firstPerson =>
    let position := p.position + Vec3.up * eyeHeight
    { c with position := position, target := position + p.lookDirection }
  | .thirdPerson =>
    let boom : Vec3 := ⟨p.yaw.sin * p.pitch.cos, -p.pitch.sin, p.yaw.cos * p.pitch.cos⟩
    let target := p.position + Vec3.up
    { c with
      position := target + boom * boomLength + Vec3.up * (1.5 : Float32)
      target := target }
  | .topDown =>
    { c with position := p.position + ⟨0, topDownHeight, 0.01⟩, target := p.position }
  | .pointClick =>
    { c with
      position := Easing.mixPoints (p.position + pointClickOffset) c.position keep
      target := p.position }

/-- Follows the player for `dt` seconds. -/
def follow (c : Camera) (p : Player) (dt : Float32) : Camera :=
  c.place p ((Scalar.clamp c.smoothing 0 1).pow (Scalar.larger dt 0 * 60))

/-- Takes its place at once. -/
def snap (c : Camera) (p : Player) : Camera := c.place p 0

def view (c : Camera) : Mat4 := .lookAt c.position c.target .up

def projection (c : Camera) : Mat4 := .perspective c.fieldOfView c.aspect c.near c.far

def viewProjection (c : Camera) : Mat4 := c.projection * c.view

/-- The pixel of a point, from the top left corner; none for a point behind the camera. -/
def project? (c : Camera) (point : Vec3) (viewport : Vec2) : Option Vec2 :=
  let clip := c.viewProjection.apply (.ofPoint point)
  if clip.w ≤ 0 then none
  else some ⟨(clip.x / clip.w + 1) * 0.5 * viewport.x, (1 - clip.y / clip.w) * 0.5 * viewport.y⟩

/-- Takes on the shape of a viewport with positive sides. -/
def resize (c : Camera) (width height : Float32) : Camera :=
  if 0 < width && 0 < height then { c with aspect := width / height } else c

end Camera
end BlockStage
