/-!
Conversions between the two widths of float and roundings to whole numbers. Each of them takes the
exact value `± significand · 2 ^ exponent` apart and rounds once, to nearest with ties to even, so
that a statement about it is a statement about integers.
-/

namespace BlockStage.Scalar

open Float.Model (Format UnpackedFloat)

/-- The nearest single. Values beyond its range become infinite. -/
def narrow (x : Float) : Float32 :=
  match x.toModel.unpack with
  | .finite sign significand exponent _ =>
    .ofModel (.pack (UnpackedFloat.round .binary32 sign significand exponent))
  | other => .ofModel (.pack other)

/-- The double of the same value. -/
def widen (x : Float32) : Float :=
  match x.toModel.unpack with
  | .finite sign significand exponent _ =>
    .ofModel (.pack (UnpackedFloat.round .binary64 sign significand exponent))
  | other => .ofModel (.pack other)

/-- The nearest whole number, halves away from zero. The sign stays, also on zero. -/
def roundUnpacked (format : Format) : UnpackedFloat → UnpackedFloat
  | .finite sign significand exponent positive =>
    if 0 ≤ exponent then .finite sign significand exponent positive
    else
      let unit := 1 <<< (-exponent).toNat
      .normalize format (sign.apply ((2 * significand + unit) / (2 * unit))) 0 sign
  | other => other

def round (x : Float) : Float := .ofModel (.pack (roundUnpacked .binary64 x.toModel.unpack))

def roundSingle (x : Float32) : Float32 :=
  .ofModel (.pack (roundUnpacked .binary32 x.toModel.unpack))

/-- The least whole number that is not below `x`. The sign stays, also on zero. -/
def ceil (x : Float) : Float :=
  match x.toModel.unpack with
  | .finite sign significand exponent positive =>
    if 0 ≤ exponent then .ofModel (.pack (.finite sign significand exponent positive))
    else
      let unit := 1 <<< (-exponent).toNat
      let whole := match sign with
        | .positive => (significand + (unit - 1)) / unit
        | .negative => significand / unit
      .ofModel (.pack (.normalize .binary64 (sign.apply whole) 0 sign))
  | other => .ofModel (.pack other)

/-- What is left of `x` once its whole part is taken away, with the sign of `x`. -/
def fraction (x : Float32) : Float32 :=
  match x.toModel.unpack with
  | .finite sign significand exponent _ =>
    if 0 ≤ exponent then .ofModel (.pack (.zero sign))
    else
      let unit := 1 <<< (-exponent).toNat
      .ofModel (.pack (.normalize .binary32 (sign.apply (significand % unit)) exponent sign))
  | .zero sign => .ofModel (.pack (.zero sign))
  | _ => .ofModel (.pack .notANumber)

/-- The position of `x` within one turn: its distance from the whole number below. -/
def turn (x : Float32) : Float32 :=
  let part := fraction x
  if part < 0 then part + 1 else part

/-- The whole part, held within 64 signed bits. What is not a number counts as zero. -/
def toWord (x : Float) : Int64 := x.toModel.toInt64

def ofWord (n : Int64) : Float := .ofModel (.ofInt64 n)

def ofWordSingle (n : Int64) : Float32 := .ofModel (.ofInt64 n)

def ofNat (n : Nat) : Float := .ofModel (.ofNat n)

def ofNatSingle (n : Nat) : Float32 := .ofModel (.ofNat n)

end BlockStage.Scalar
