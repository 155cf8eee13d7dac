import BlockStage.Color
import BlockStage.Decimal.Reading
import BlockStage.Json.Value

/-!
The parameters of a block, and the check of a raw value against one of them. What is missing or of
the wrong kind becomes the parameter's default.
-/

namespace BlockStage

/-- A checked value. -/
inductive Argument
  | number (x : Float)
  | text (s : String)
  | color (rgb : Vec3)

/-- What a parameter holds, with its default. A colour's default is packed. -/
inductive ParameterKind
  | number (default : Float)
  | text (default : String)
  | choice (options : List String) (default : String)
  | color (packed : Nat)

structure Parameter where
  name : String
  kind : ParameterKind

namespace ParameterKind

def default : ParameterKind → Argument
  | number x => .number x
  | text s => .text s
  | choice _ s => .text s
  | color packed => .color (Color.ofPacked packed)

/-- A number, or a text that spells one; it has to be finite. -/
def readNumber? (raw : Json.Value) : Option Float :=
  let x? := match raw with
    | .number n => some n.toDouble
    | .text s => Decimal.read? (Text.trimChars s.toList)
    | _ => none
  x?.filter Float.isFinite

def readText? : Json.Value → Option String
  | .text s => some s
  | .number n => some n.text
  | .bool b => some (if b then "true" else "false")
  | _ => none

def readChoice? (options : List String) : Json.Value → Option String
  | .text s => if s ∈ options then some s else none
  | _ => none

/-- A hexadecimal text, or a packed number of at most 24 bits. -/
def readColor? : Json.Value → Option Vec3
  | .text s => Color.ofHex? s
  | .number (.natural n) => if n ≤ 0xffffff then some (Color.ofPacked n.toNat) else none
  | _ => none

/-- The argument a raw value is accepted as. -/
def accept? : ParameterKind → Json.Value → Option Argument
  | number _, raw => (readNumber? raw).map .number
  | text _, raw => (readText? raw).map .text
  | choice options _, raw => (readChoice? options raw).map .text
  | color _, raw => (readColor? raw).map .color

def coerce (kind : ParameterKind) (raw : Option Json.Value) : Argument :=
  (raw.bind kind.accept?).getD kind.default

end ParameterKind
end BlockStage
