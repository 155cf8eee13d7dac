import BlockStage.Scalar.Order
import BlockStage.Script.Arguments

/-!
The conditions a script can ask. A condition is a description; it is evaluated in a run.
-/

namespace BlockStage

inductive Comparison
  | equal
  | different
  | less
  | greater
  | atMost
  | atLeast
deriving DecidableEq

namespace Comparison

/-- A symbol outside the vocabulary means "greater". -/
def ofSymbol (symbol : String) : Comparison :=
  if symbol = "=" ∨ symbol = "==" then equal
  else if symbol = "!=" ∨ symbol = "≠" then different
  else if symbol = "<" then less
  else if symbol = "<=" ∨ symbol = "≤" then atMost
  else if symbol = ">=" ∨ symbol = "≥" then atLeast
  else greater

/-- Numbers closer than this count as equal. -/
def tolerance : Float := 1e-9

def holds (comparison : Comparison) (a b : Float) : Bool :=
  match comparison with
  | equal => (a - b).abs < tolerance
  | different => tolerance ≤ (a - b).abs
  | less => a < b
  | greater => b < a
  | atMost => a ≤ b
  | atLeast => b ≤ a

end Comparison

inductive Condition
  /-- The player's centre is at most this far from the owner's. -/
  | nearPlayer (distance : Float32)
  | farFromPlayer (distance : Float32)
  | keyPressed (label : String)
  | anyKey
  | variableIs (name : String) (comparison : Comparison) (value : Float)
  /-- A fresh draw with this probability in percent. -/
  | chance (percent : Float)

namespace Condition

def ofArguments (r : ArgumentReader) : Condition :=
  let kind := r.text "condition"
  if kind = "farFromPlayer" then farFromPlayer (r.single "distance")
  else if kind = "keyPressed" then keyPressed (r.text "key")
  else if kind = "anyKey" then anyKey
  else if kind = "variable" then
    variableIs (r.text "var") (.ofSymbol (r.text "op")) (r.number "value")
  else if kind = "chance" then chance (Scalar.clamp (r.number "percent") 0 100)
  else nearPlayer (r.single "distance")

end Condition
end BlockStage
