import BlockStage.Effect.Basic
import BlockStage.Scene.Basic

/-!
The live effects of a scene, in the order in which they were started. A record names its object by
number; once the object is gone the record goes with the next step.
-/

namespace BlockStage

/-- The number a live effect is known by. It counts the effects that were started before, of which
there are fewer than 2^64 however long a run lasts, so that a word of 64 bits holds it. -/
structure RecordId where
  number : Nat
deriving DecidableEq

structure EffectRecord where
  id : RecordId
  target : ObjectId
  /-- Seconds since the effect was started. -/
  elapsed : Float32 := 0
  effect : Effect

structure Registry where
  records : List EffectRecord := []
  nextId : Nat := 0

namespace Registry

/-- Starts an effect on an object. -/
def add (r : Registry) (target : ObjectId) (effect : Effect) : RecordId × Registry :=
  let id : RecordId := ⟨r.nextId⟩
  (id, { records := r.records ++ [{ id, target, effect }], nextId := r.nextId + 1 })

def contains (r : Registry) (id : RecordId) : Bool := r.records.any (·.id = id)

/-- Ends all effects of an object. -/
def removeObject (r : Registry) (target : ObjectId) : Registry :=
  { r with records := r.records.filter (·.target ≠ target) }

/-- Ends the bursts and trails of an object. -/
def stopParticles (r : Registry) (target : ObjectId) : Registry :=
  { r with records := r.records.filter fun record =>
      record.target ≠ target || !record.effect.hasParticles }

def clear (r : Registry) : Registry := { r with records := [] }

/-- One step of one record: the scene, and the record unless it is over. -/
def stepRecord (view : StepView) (record : EffectRecord) (scene : Scene) :
    Scene × Option EffectRecord :=
  match scene.find? record.target with
  | none => (scene, none)
  | some o =>
    let elapsed := record.elapsed + view.dt
    let (o, effect) := record.effect.step o elapsed view
    (scene.modify record.target fun _ => o,
      effect.map fun effect => { record with elapsed, effect })

/-- One step of every record, in order, each on the scene that those before it left. -/
def stepAll (view : StepView) : List EffectRecord → Scene → Scene × List EffectRecord
  | [], scene => (scene, [])
  | record :: rest, scene =>
    let (scene, kept) := stepRecord view record scene
    let (scene, rest) := stepAll view rest scene
    (scene, kept.toList ++ rest)

def step (r : Registry) (view : StepView) (scene : Scene) : Scene × Registry :=
  let (scene, records) := stepAll view r.records scene
  (scene, { r with records := records })

/-- All live particles, in the order of the records. -/
def particles (r : Registry) : List Particle := r.records.flatMap (·.effect.particles)

end Registry
end BlockStage
