/-!
Decimal numbers `digits · 10 ^ exponent` and the floats nearest to them.
-/

namespace BlockStage

structure Decimal where
  digits : Nat
  exponent : Int
deriving DecidableEq, Repr

namespace Decimal

/-- The nearest double, ties to even; infinite beyond the range. -/
def toDouble (d : Decimal) : Float :=
  Float.ofScientific d.digits (d.exponent < 0) d.exponent.natAbs

/-- The nearest single, rounded once and not by way of a double. -/
def toSingle (d : Decimal) : Float32 :=
  Float32.ofScientific d.digits (d.exponent < 0) d.exponent.natAbs

/-- Drops up to `bound` zeros from the end of the digits. -/
def dropZeros : Nat → Decimal → Decimal
  | 0, d => d
  | bound + 1, d =>
    if d.digits ≠ 0 ∧ d.digits % 10 = 0 then dropZeros bound ⟨d.digits / 10, d.exponent + 1⟩ else d

/-- The value of a list of decimal digits. -/
def ofDigits (digits : List Char) : Nat :=
  digits.foldl (fun value c => 10 * value + (c.toNat - 48)) 0

def digitChars (n : Nat) : List Char := Nat.toDigits 10 n

end Decimal
end BlockStage
