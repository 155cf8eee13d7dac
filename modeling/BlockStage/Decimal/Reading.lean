import BlockStage.Decimal.Basic

/-!
Numbers as people type them: an optional sign, digits with at most one point among or around them,
an optional exponent; or a word for infinity or for what is not a number.
-/

namespace BlockStage.Decimal

/-- A sign in front of the rest; `true` is minus. -/
def splitSign : List Char → Bool × List Char
  | '-' :: rest => (true, rest)
  | '+' :: rest => (false, rest)
  | rest => (false, rest)

/-- An exponent `e`, an optional sign and at least one digit, and nothing behind it; no text at all
stands for zero. -/
def readExponent? : List Char → Option Int
  | [] => some 0
  | c :: rest =>
    if c = 'e' ∨ c = 'E' then
      let (minus, digits) := splitSign rest
      if digits ≠ [] ∧ digits.all Char.isDigit then
        some (if minus then -(ofDigits digits : Int) else ofDigits digits)
      else none
    else none

/-- The fraction of a number: the digits behind a point, if there is one. -/
def splitFraction : List Char → List Char × List Char
  | '.' :: rest => (rest.takeWhile Char.isDigit, rest.dropWhile Char.isDigit)
  | rest => ([], rest)

def readUnsigned? (cs : List Char) : Option Float :=
  let word := cs.map Char.toLower
  if word = "inf".toList ∨ word = "infinity".toList then some (1 / 0)
  else if word = "nan".toList then some (0 / 0)
  else
    let whole := cs.takeWhile Char.isDigit
    let (part, rest) := splitFraction (cs.dropWhile Char.isDigit)
    if whole = [] ∧ part = [] then none
    else (readExponent? rest).map fun exponent =>
      toDouble ⟨ofDigits (whole ++ part), exponent - part.length⟩

/-- The number a whole text stands for. -/
def read? (cs : List Char) : Option Float :=
  let (minus, rest) := splitSign cs
  (readUnsigned? rest).map fun x => if minus then -x else x

end BlockStage.Decimal
