import BlockStage.Scene.Object

/-!
The causes for which loading and editing can fail.
-/

namespace BlockStage

inductive Failure
  /-- A text is not a document of the expected form. -/
  | malformed
  /-- The scene holds no object of that number. -/
  | unknownObject (id : ObjectId)
deriving DecidableEq

namespace Failure

def message : Failure → String
  | malformed => "malformed program json"
  | unknownObject id => "unknown object ObjectId(" ++ toString id.number ++ ")"

end Failure
end BlockStage
