import BlockStage.Decimal.Scaling
import BlockStage.Decimal.Shortest

/-!
Numbers as they are written in a document, and how a float is laid out in one: the fewest digits,
in plain notation within a range of exponents, always with a point or an exponent.
-/

namespace BlockStage.Json

/-- A written number. The digits behind the point and the exponent, with its sign if one is
written, are kept apart. -/
structure Numeral where
  negative : Bool
  whole : List Char
  fraction : Option (List Char)
  exponent : Option (Option Char × List Char)
deriving DecidableEq

namespace Numeral

def chars (n : Numeral) : List Char :=
  (if n.negative then ['-'] else []) ++ n.whole
    ++ (match n.fraction with | some digits => '.' :: digits | none => [])
    ++ (match n.exponent with
      | some (sign, digits) => 'e' :: sign.toList ++ digits
      | none => [])

/-- Neither a point nor an exponent is written. -/
def isWhole (n : Numeral) : Bool := n.fraction.isNone && n.exponent.isNone

def ofNat (n : Nat) : Numeral := ⟨false, Decimal.digitChars n, none, none⟩

def ofInt (n : Int) : Numeral := ⟨n < 0, Decimal.digitChars n.natAbs, none, none⟩

/-- The power of ten that is written. -/
def power (n : Numeral) : Int :=
  match n.exponent with
  | some (some '-', digits) => -(Decimal.ofDigits digits : Int)
  | some (_, digits) => Decimal.ofDigits digits
  | none => 0

/-- Appends digits to a word as long as it fits in 64 bits; with it, the digits that are left. -/
def appendDigits (word : Nat) : List Char → Nat × List Char
  | [] => (word, [])
  | c :: rest =>
    let longer := 10 * word + (c.toNat - 48)
    if longer < UInt64.size then appendDigits longer rest else (word, c :: rest)

/-- The digits that count, and the power of ten of the last one. Digits of the whole part that do
not fit in a word leave their places, those of the fraction leave nothing. -/
def magnitude (n : Numeral) : Decimal :=
  let part := n.fraction.getD []
  let (word, places) := appendDigits 0 n.whole
  let (word, unused) := appendDigits word part
  ⟨word, n.power + places.length + unused.length - part.length⟩

/-- The double a number is read as. It is the nearest one for at most fifteen digits and a small
power of ten. -/
def toDouble (n : Numeral) : Float :=
  let x := n.magnitude.scaled
  if n.negative then -x else x

/-- The exponents of the leading digit that are written without an exponent. -/
structure Layout where
  leastPlain : Int
  greatestPlain : Int

/-- Doubles are plain from `0.00001` to below `1e+16`. -/
def Layout.double : Layout := ⟨-5, 15⟩

/-- Singles are plain from `0.000001` to below `1e+13`. -/
def Layout.single : Layout := ⟨-6, 12⟩

def zeros (n : Nat) : List Char := List.replicate n '0'

def layOut (layout : Layout) (negative : Bool) (d : Decimal) : Numeral :=
  let digits := Decimal.digitChars d.digits
  let lead := d.exponent + (digits.length - 1)
  if d.digits = 0 then ⟨negative, ['0'], some ['0'], none⟩
  else if layout.leastPlain ≤ lead ∧ lead ≤ layout.greatestPlain then
    if 0 ≤ d.exponent then ⟨negative, digits ++ zeros d.exponent.toNat, some ['0'], none⟩
    else if 0 ≤ lead then
      ⟨negative, digits.take (lead.toNat + 1), some (digits.drop (lead.toNat + 1)), none⟩
    else ⟨negative, ['0'], some (zeros (-lead - 1).toNat ++ digits), none⟩
  else
    let part := digits.drop 1
    ⟨negative, digits.take 1, if part = [] then none else some part,
      some (some (if lead < 0 then '-' else '+'), Decimal.digitChars lead.natAbs)⟩

def isSigned (bits : Nat) (width : Nat) : Bool := bits.testBit (width - 1)

/-- A finite double. -/
def ofDouble (x : Float) : Numeral :=
  layOut .double (isSigned x.toBits.toNat 64) (Decimal.ofDouble x)

/-- A finite single. -/
def ofSingle (x : Float32) : Numeral :=
  layOut .single (isSigned x.toBits.toNat 32) (Decimal.ofSingle x)

end Numeral
end BlockStage.Json
