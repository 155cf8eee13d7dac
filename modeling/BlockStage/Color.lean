import BlockStage.Geometry.Vector
import BlockStage.Scalar.Exact
import BlockStage.Text.Blank
import BlockStage.Text.Hex

/-!
Colours as red, green and blue in `[0, 1]`: their hexadecimal text, the packed number `0xRRGGBB`,
and hue, saturation and lightness.
-/

namespace BlockStage.Color

def channel (packed shift : Nat) : Float32 :=
  Scalar.ofNatSingle ((packed >>> shift) % 256) / 255

def ofPacked (packed : Nat) : Vec3 :=
  ⟨channel packed 16, channel packed 8, channel packed 0⟩

def hexDigits? : List Char → Option Nat
  | [] => none
  | cs => cs.foldl (fun value c => do return (← value) * 16 + (← Text.hexValue? c)) (some 0)

/-- A hexadecimal number, which may start with a plus sign. -/
def hexNumber? : List Char → Option Nat
  | '+' :: rest => hexDigits? rest
  | cs => hexDigits? cs

/-- The bytes a text takes. -/
def byteCount (cs : List Char) : Nat := (String.ofList cs).utf8ByteSize

/-- The colour of a text: white space and number signs in front aside, three bytes that each count
twice, or six. -/
def ofHex? (text : String) : Option Vec3 :=
  let digits := (Text.trimChars text.toList).dropWhile (· = '#')
  if byteCount digits = 3 then (hexNumber? (digits.flatMap fun c => [c, c])).map ofPacked
  else if byteCount digits = 6 then (hexNumber? digits).map ofPacked
  else none

def hexPair (n : UInt8) : List Char := [Text.hexDigit (n.toNat / 16), Text.hexDigit (n.toNat % 16)]

/-- The text `#rrggbb` of the nearest colour it can name. -/
def toHex (rgb : Vec3) : String :=
  let c := (rgb.clampUnit * (255 : Float32)).map Scalar.roundSingle
  String.ofList ('#' :: hexPair c.x.toUInt8 ++ hexPair c.y.toUInt8 ++ hexPair c.z.toUInt8)

/-- The distance between one and the next single. -/
def tolerance : Float32 := 1.1920929e-7

/-- Hue, saturation and lightness, each in `[0, 1]`. -/
def toHsl (rgb : Vec3) : Vec3 :=
  let max := rgb.greatest
  let min := rgb.least
  let lightness := (max + min) / 2
  if (max - min).abs < tolerance then ⟨0, 0, lightness⟩
  else
    let spread := max - min
    let saturation :=
      if 0.5 < lightness then spread / (2 - max - min) else spread / (max + min)
    let sixth :=
      if max == rgb.x then (rgb.y - rgb.z) / spread + (if rgb.y < rgb.z then 6 else 0)
      else if max == rgb.y then (rgb.z - rgb.x) / spread + 2
      else (rgb.x - rgb.y) / spread + 4
    ⟨sixth / 6, saturation, lightness⟩

/-- One channel, from the hue seen from that channel. -/
def hueChannel (p q hue : Float32) : Float32 :=
  let t := Scalar.turn hue
  if t < 1 / 6 then p + (q - p) * 6 * t
  else if t < 0.5 then q
  else if t < 2 / 3 then p + (q - p) * (2 / 3 - t) * 6
  else p

/-- The hue wraps around. -/
def ofHsl (hue saturation lightness : Float32) : Vec3 :=
  let h := Scalar.turn hue
  if saturation ≤ 0 then .splat lightness
  else
    let q :=
      if lightness < 0.5 then lightness * (1 + saturation)
      else lightness + saturation - lightness * saturation
    let p := 2 * lightness - q
    ⟨hueChannel p q (h + 1 / 3), hueChannel p q h, hueChannel p q (h - 1 / 3)⟩

end BlockStage.Color
