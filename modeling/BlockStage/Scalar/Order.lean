/-!
Comparing and limiting floats of either width. A comparison with what is not a number fails, so
the larger and the smaller of two fall back on the other operand, and a limited value stays.
-/

namespace BlockStage.Scalar

variable {α : Type} [LT α] [DecidableLT α] [BEq α]

/-- The first of two equal operands; the other operand if one is not a number. -/
def larger (a b : α) : α :=
  if a < b then b else if a == a then a else b

/-- The first of two equal operands; the other operand if one is not a number. -/
def smaller (a b : α) : α :=
  if b < a then b else if a == a then a else b

def clamp (x low high : α) : α :=
  if x < low then low else if high < x then high else x

end BlockStage.Scalar
