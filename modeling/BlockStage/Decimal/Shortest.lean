import BlockStage.Decimal.Basic

/-!
The decimal with the fewest digits that reads back to a given float. The value
`significand · 2 ^ exponent` is a quotient of naturals; on the grid of `n` significant digits only
its two neighbours can read back unless a coarser grid already holds a decimal that does, so the
neighbours are tried for `n = 1, 2, …`, the nearer one first.
-/

namespace BlockStage.Decimal

open Float.Model (UnpackedFloat)

/-- `significand · 2 ^ exponent` as numerator and denominator. -/
def quotient (significand : Nat) (exponent : Int) : Nat × Nat :=
  if 0 ≤ exponent then (significand <<< exponent.toNat, 1)
  else (significand, 1 <<< (-exponent).toNat)

/-- The power of ten of the leading digit of `num / den`. -/
def leadingPower (num den : Nat) : Int :=
  if den ≤ num then (digitChars (num / den)).length - 1
  else -(digitChars ((den - 1) / num)).length

/-- The two decimals around `num / den` whose last digit counts `10 ^ last`, nearer one first and
the even one first on a tie. -/
def neighbours (num den : Nat) (last : Int) : List Decimal :=
  let scaledNum := if 0 ≤ last then num else num * Nat.pow 10 (-last).toNat
  let scaledDen := if 0 ≤ last then den * Nat.pow 10 last.toNat else den
  let below := scaledNum / scaledDen
  let low : Decimal := ⟨below, last⟩
  let high : Decimal := ⟨below + 1, last⟩
  match compare (2 * (scaledNum % scaledDen)) scaledDen with
  | .lt => [low, high]
  | .gt => [high, low]
  | .eq => if below % 2 = 0 then [low, high] else [high, low]

/-- All digits of `significand · 2 ^ exponent`. -/
def exact (significand : Nat) (exponent : Int) : Decimal :=
  if 0 ≤ exponent then ⟨significand <<< exponent.toNat, 0⟩
  else ⟨significand * Nat.pow 5 (-exponent).toNat, exponent⟩

/-- The most significant digits any double needs. -/
def mostDigits : Nat := 17

/-- The shortest decimal that passes `readsBack`; all digits if none of at most seventeen does. -/
def shortest (readsBack : Decimal → Bool) (significand : Nat) (exponent : Int) : Decimal :=
  let (num, den) := quotient significand exponent
  let lead := leadingPower num den
  let found := (List.range mostDigits).findSome? fun (n : Nat) =>
    (neighbours num den (lead - n)).find? readsBack
  dropZeros mostDigits (found.getD (exact significand exponent))

/-- The shortest decimal of a positive finite double. -/
def ofDouble (x : Float) : Decimal :=
  match x.toModel.unpack with
  | .finite _ significand exponent _ =>
    shortest (fun d => d.toDouble.toBits == x.abs.toBits) significand exponent
  | _ => ⟨0, 0⟩

/-- The shortest decimal of a positive finite single. -/
def ofSingle (x : Float32) : Decimal :=
  match x.toModel.unpack with
  | .finite _ significand exponent _ =>
    shortest (fun d => d.toSingle.toBits == x.abs.toBits) significand exponent
  | _ => ⟨0, 0⟩

end BlockStage.Decimal
