import BlockStage.Failure

/-!
A scene: objects in their order, the next number for an object, and the point where the player
starts.
-/

namespace BlockStage

structure Scene where
  objects : List SceneObject := []
  nextId : BitVec 32 := 1
  spawnPoint : Vec3 := ⟨0, 2, 5⟩

namespace Scene

/-- The next number. Behind the greatest one the count begins again with 0. -/
def allocate (s : Scene) : ObjectId × Scene := (⟨s.nextId⟩, { s with nextId := s.nextId + 1 })

/-- Adds an object at the end. The next number is the one behind its own, or a greater one. -/
def spawn (s : Scene) (o : SceneObject) : Scene :=
  let behind := o.id.word + 1
  { s with objects := s.objects ++ [o], nextId := if s.nextId < behind then behind else s.nextId }

def find? (s : Scene) (id : ObjectId) : Option SceneObject := s.objects.find? (·.id = id)

def contains (s : Scene) (id : ObjectId) : Bool := s.objects.any (·.id = id)

/-- Removes the first object of that number and keeps the order of the others. -/
def despawn (s : Scene) (id : ObjectId) : Scene :=
  { s with objects := s.objects.eraseP (·.id = id) }

def modifyFirst (id : ObjectId) (f : SceneObject → SceneObject) :
    List SceneObject → List SceneObject
  | [] => []
  | o :: rest => if o.id = id then f o :: rest else o :: modifyFirst id f rest

/-- Changes the first object of that number. -/
def modify (s : Scene) (id : ObjectId) (f : SceneObject → SceneObject) : Scene :=
  { s with objects := modifyFirst id f s.objects }

/-- Adds a copy of an object under the next number. -/
def duplicate? (s : Scene) (id : ObjectId) : Option (ObjectId × Scene) :=
  (s.find? id).map fun o =>
    let (copy, s) := s.allocate
    (copy, s.spawn { o with id := copy })

def findNamed? (s : Scene) (name : String) : Option SceneObject :=
  s.objects.find? (·.name = name)

/-- Puts other scripts in place of an object's own. -/
def setScripts (s : Scene) (id : ObjectId) (scripts : List Stack) : Except Failure Scene :=
  if s.contains id then .ok (s.modify id fun o => { o with scripts })
  else .error (.unknownObject id)

/-- The objects whose boxes overlap a region. -/
def within (s : Scene) (region : Box) : List ObjectId :=
  (s.objects.filter (·.box.intersects region)).map (·.id)

def ids (s : Scene) : List ObjectId := s.objects.map (·.id)

end Scene
end BlockStage
