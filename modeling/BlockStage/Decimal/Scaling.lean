import BlockStage.Decimal.Basic
import BlockStage.Scalar.Exact

/-!
Decimals as products of two doubles: the digits, and a power of ten to multiply with or to divide
by. Each of these steps rounds once, so the product is the nearest double only where the digits and
the power are doubles themselves; elsewhere it may miss it in the last place.
-/

namespace BlockStage.Decimal

/-- The nearest double to a power of ten. -/
def powerOfTen (n : Nat) : Float := Float.ofScientific 1 false n

/-- The greatest power of ten within the range of doubles. -/
def greatestPower : Nat := 308

/-- A double times a power of ten; infinite if that power is out of range, unless it is zero. -/
def scaleUp (x : Float) (n : Nat) : Float :=
  if n ≤ greatestPower then x * powerOfTen n
  else if x == 0 then 0 else 1 / 0

/-- A 64-bit word over a power of ten. A power out of range takes two divisions; where they are not
enough, nothing is left of any word. -/
def scaleDown (x : Float) (n : Nat) : Float :=
  if n ≤ greatestPower then x / powerOfTen n
  else if n ≤ 2 * greatestPower then x / powerOfTen greatestPower / powerOfTen (n - greatestPower)
  else 0

/-- The product of the digits, which fit in a 64-bit word, and their power of ten. -/
def scaled (d : Decimal) : Float :=
  let x := Scalar.ofNat d.digits
  if 0 ≤ d.exponent then scaleUp x d.exponent.toNat else scaleDown x (-d.exponent).toNat

end BlockStage.Decimal
