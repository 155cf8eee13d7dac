import BlockStage.Block.Saved
import BlockStage.Color
import BlockStage.Failure
import BlockStage.Scalar.Order
import BlockStage.Scene.Basic

/-!
Saved scenes: what a project keeps of an object, projects in documents, and the way from a project
to a scene and back.
-/

namespace BlockStage

open Json (Document)
open Json.Document

/-- An object as it is saved. Without a category it has that of its shape. -/
structure SavedObject where
  shape : String := "box"
  name : String := ""
  category : Option String := none
  position : Vec3 := .zero
  rotation : Vec3 := .zero
  scale : Vec3 := .one
  /-- A hexadecimal text. -/
  color : Option String := none
  opacity : Float32 := 1
  visible : Bool := true
  collidable : Bool := true
  anchored : Bool := false
  scripts : List Stack := []

structure Project where
  objects : List SavedObject := []
  spawnPoint : Option Vec3 := none

/-- Exactly three numbers. -/
def Vec3.ofDocument? (depth : Nat) (d : Document) : Option Vec3 := do
  match ← Document.list? (fun _ => single?) depth d with
  | [x, y, z] => return ⟨x, y, z⟩
  | _ => none

def Vec3.toDocument (v : Vec3) : Document := .array [.single v.x, .single v.y, .single v.z]

namespace SavedObject

def fieldNames : List String :=
  ["type", "name", "category", "position", "rotation", "scale", "color", "opacity", "visible",
    "collidable", "anchored", "scripts"]

def ofDocument? : Nat → Document → Option SavedObject
  | 0, _ => none
  | depth + 1, d => do
    match ← d.fields? fieldNames with
    | [shape, name, category, position, rotation, scale, color, opacity, visible, collidable,
        anchored, scripts] =>
      return {
        shape := ← orElse "box" text? shape
        name := ← orElse "" text? name
        category := ← optional text? category
        position := ← orElse .zero (Vec3.ofDocument? depth) position
        rotation := ← orElse .zero (Vec3.ofDocument? depth) rotation
        scale := ← orElse .one (Vec3.ofDocument? depth) scale
        color := ← optional text? color
        opacity := ← orElse 1 single? opacity
        visible := ← orElse true bool? visible
        collidable := ← orElse true bool? collidable
        anchored := ← orElse false bool? anchored
        scripts := ← orElse [] (Stack.listOfDocument? depth) scripts }
    | _ => none

/-- A field that is written only if there is something to write. -/
def whenSome (name : String) : Option String → List (String × Document)
  | none => []
  | some s => [(name, .string s)]

def toDocument (o : SavedObject) : Document :=
  .record (
    [("type", .string o.shape), ("name", .string o.name)]
    ++ whenSome "category" o.category
    ++ [("position", o.position.toDocument), ("rotation", o.rotation.toDocument),
      ("scale", o.scale.toDocument)]
    ++ whenSome "color" o.color
    ++ [("opacity", .single o.opacity), ("visible", .bool o.visible),
      ("collidable", .bool o.collidable), ("anchored", .bool o.anchored),
      ("scripts", .array (o.scripts.map Stack.toDocument))])

/-- The object of a scene. A colour that cannot be read is left as it is for a new object. -/
def toObject (o : SavedObject) (id : ObjectId) : SceneObject :=
  let fresh : SceneObject := { id }
  { fresh with
    name := o.name
    shape := o.shape
    category := o.category.getD o.shape
    position := o.position
    rotation := o.rotation
    scale := o.scale
    color := (o.color.bind Color.ofHex?).getD fresh.color
    opacity := Scalar.clamp o.opacity 0 1
    visible := o.visible
    collidable := o.collidable
    anchored := o.anchored
    scripts := o.scripts }

def ofObject (o : SceneObject) : SavedObject where
  shape := o.shape
  name := o.name
  category := if o.category = o.shape then none else some o.category
  position := o.position
  rotation := o.rotation
  scale := o.scale
  color := some (Color.toHex o.color)
  opacity := o.opacity
  visible := o.visible
  collidable := o.collidable
  anchored := o.anchored
  scripts := o.scripts

end SavedObject

namespace Project

def ofDocument? : Nat → Document → Option Project
  | 0, _ => none
  | depth + 1, d => do
    match ← d.fields? ["objects", "spawnPoint"] with
    | [objects, spawnPoint] =>
      return {
        objects := ← orElse [] (Document.list? SavedObject.ofDocument? depth) objects
        spawnPoint := ← optional (Vec3.ofDocument? depth) spawnPoint }
    | _ => none

def parse (text : String) : Except Failure Project :=
  match (Document.parse? text).bind (ofDocument? Json.maxDepth) with
  | some project => .ok project
  | none => .error .malformed

def toDocument (p : Project) : Document :=
  .record (
    [("objects", .array (p.objects.map SavedObject.toDocument))]
    ++ (match p.spawnPoint with
      | none => []
      | some point => [("spawnPoint", point.toDocument)]))

def render (p : Project) : String := p.toDocument.render

/-- The next object of a scene, without its empty stacks. -/
def place (scene : Scene) (o : SavedObject) : Scene :=
  let (id, scene) := scene.allocate
  scene.spawn ({ o with scripts := Stack.pruneEmpty o.scripts }.toObject id)

/-- The scene of a project. Its objects are numbered from one in their order. -/
def toScene (p : Project) : Scene :=
  let empty : Scene := {}
  p.objects.foldl place { empty with spawnPoint := p.spawnPoint.getD empty.spawnPoint }

def ofScene (s : Scene) : Project where
  objects := s.objects.map SavedObject.ofObject
  spawnPoint := some s.spawnPoint

end Project
end BlockStage
