import BlockStage.Scalar.Exact
import BlockStage.Scalar.Order

/-!
A clock of fixed steps. It takes in frame times of any length and gives out whole steps, at most
ten at once.
-/

namespace BlockStage

structure FixedClock where
  step : Float32
  /-- Time that does not fill a step yet. -/
  saved : Float32 := 0

namespace FixedClock

def mostSteps : Nat := 10

/-- Takes in the time of a frame and gives out the steps it fills. -/
def accumulate (c : FixedClock) (dt : Float32) : Nat × FixedClock :=
  let saved := c.saved + Scalar.larger dt 0
  let saved := Scalar.smaller saved (c.step * Scalar.ofNatSingle mostSteps)
  let steps := (saved / c.step).toUInt32.toNat
  (steps, { c with saved := saved - Scalar.ofNatSingle steps * c.step })

def reset (c : FixedClock) : FixedClock := { c with saved := 0 }

end FixedClock
end BlockStage
