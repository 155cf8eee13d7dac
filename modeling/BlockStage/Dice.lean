import BlockStage.Geometry.Vector
import BlockStage.Scalar.Exact

/-!
A seeded source of chance: 64-bit words stepped by three shifts. The same seed gives the same run.
-/

namespace BlockStage

structure Dice where
  state : UInt64

namespace Dice

/-- The seed zero would stay zero for ever and counts as one. -/
def ofSeed (seed : UInt64) : Dice := ⟨if seed = 0 then 1 else seed⟩

def step (x : UInt64) : UInt64 :=
  let x := x ^^^ (x <<< 13)
  let x := x ^^^ (x >>> 7)
  x ^^^ (x <<< 17)

def next (d : Dice) : UInt64 × Dice :=
  let x := step d.state
  (x, ⟨x⟩)

/-- A whole number below `bound`; zero, without a draw, if there is none. -/
def below (d : Dice) (bound : UInt32) : Nat × Dice :=
  if bound = 0 then (0, d)
  else
    let (x, d) := d.next
    (x.toNat % bound.toNat, d)

/-- A multiple of `2 ^ -24` in `[0, 1)`. -/
def unit (d : Dice) : Float32 × Dice :=
  let (x, d) := d.next
  ((x >>> 40).toFloat32 / 16777216, d)

def between (d : Dice) (low high : Float32) : Float32 × Dice :=
  let (u, d) := d.unit
  (low + (high - low) * u, d)

/-- True with the given probability in percent. -/
def chance (d : Dice) (percent : Float) : Bool × Dice :=
  let (u, d) := d.unit
  (Scalar.widen u * 100 < percent, d)

/-- A direction within the unit cube, raised by `lift`. -/
def spread (d : Dice) (lift : Float32) : Vec3 × Dice :=
  let (x, d) := d.between (-1) 1
  let (y, d) := d.between 0 1
  let (z, d) := d.between (-1) 1
  (⟨x, y + lift, z⟩, d)

end Dice
end BlockStage
