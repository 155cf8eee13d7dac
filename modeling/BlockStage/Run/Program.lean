import BlockStage.Scene.Basic
import BlockStage.Script.Compiled

/-!
The program of a run: every script of a scene, compiled once, with the object it belongs to.
-/

namespace BlockStage

structure Program.Entry where
  owner : ObjectId
  script : Script

structure Program where
  entries : List Program.Entry := []

namespace Program

/-- The scripts of a scene, object by object. -/
def ofScene (palette : Palette) (scene : Scene) : Program where
  entries := scene.objects.flatMap fun o =>
    (Stack.compileAll palette o.scripts).map fun script => ⟨o.id, script⟩

/-- The entries an event starts, perhaps of a single object. -/
def matching (p : Program) (event : Event) (target : Option ObjectId) : List Entry :=
  p.entries.filter fun e =>
    (match target with
      | some id => decide (id = e.owner)
      | none => true)
    && e.script.trigger.accepts event

/-- The first definition of that name on an object. -/
def definition? (p : Program) (owner : ObjectId) (name : String) : Option Script :=
  (p.entries.find? fun e => decide (e.owner = owner) && e.script.trigger.defines name).map
    (·.script)

end Program
end BlockStage
