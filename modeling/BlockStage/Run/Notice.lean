import BlockStage.Scene.Project

/-!
What a run tells the program that shows it: sounds, texts, changed variables, and objects that came
or went.
-/

namespace BlockStage

open Json (Document)

inductive Notice
  | sound (name : String)
  | tone (frequency seconds : Float32)
  | variableShown (name : String) (value : Float)
  | message (text : String) (seconds : Float32)
  /-- A text beside an object, at a point of the world. -/
  | speech (object : ObjectId) (text : String) (point : Vec3) (seconds : Float32)
  | spawned (object : ObjectId)
  | removed (object : ObjectId)

def ObjectId.toDocument (id : ObjectId) : Document := .nat id.number

namespace Notice

/-- The kind of a notice, and its fields. -/
def kinded (kind : String) (fields : List (String × Document)) : Document :=
  .record (("kind", .string kind) :: fields)

def toDocument : Notice → Document
  | sound name => kinded "playSound" [("name", .string name)]
  | tone frequency seconds =>
    kinded "playTone" [("frequency", .single frequency), ("seconds", .single seconds)]
  | variableShown name value =>
    kinded "updateHud" [("variable", .string name), ("value", .double value)]
  | message text seconds =>
    kinded "showMessage" [("text", .string text), ("seconds", .single seconds)]
  | speech object text point seconds =>
    kinded "positionOverlay" [("object", object.toDocument), ("text", .string text),
      ("world", point.toDocument), ("seconds", .single seconds)]
  | spawned object => kinded "objectSpawned" [("id", object.toDocument)]
  | removed object => kinded "objectRemoved" [("id", object.toDocument)]

end Notice
end BlockStage
