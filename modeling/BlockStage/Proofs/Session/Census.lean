import BlockStage.Proofs.Session.Showing

/-! The list of objects. A run tells which objects come and which go; whoever takes note of that,
from the numbers before the run on, has before him the numbers of the scene, in its order. -/

namespace BlockStage

/-- The numbers after a notice. There are none if it tells of an object that goes though it is not
there. -/
def Notice.census? (ids : List ObjectId) : Notice → Option (List ObjectId)
  | spawned id => some (ids ++ [id])
  | removed id => if id ∈ ids then some (ids.erase id) else none
  | _ => some ids

def census? (ids : List ObjectId) (told : List Notice) : Option (List ObjectId) :=
  told.foldlM Notice.census? ids

/-- What is told leads from one list of objects to the other, and new objects get the numbers that
come next, one after the other. -/
structure Scene.Leads (told : List Notice) (s s' : Scene) : Prop where
  listed : census? s.ids told = some s'.ids
  successive : told.filterMap Notice.handed? =
    ObjectId.successive s.nextId (told.filterMap Notice.handed?).length
  nextId : s'.nextId = s.nextId + .ofNat 32 (told.filterMap Notice.handed?).length

namespace World

variable {w w' w'' : World}

/-- What was told before, and what nobody was told yet, leads to the numbers of the scene. -/
def Listed (ids : List ObjectId) (before : List Notice) (w : World) : Prop :=
  census? ids (before ++ w.notices.toList) = some w.scene.ids

def KeepsCensus (w w' : World) : Prop := ∀ ids before, w.Listed ids before → w'.Listed ids before

namespace KeepsCensus

protected theorem trans (first : KeepsCensus w w') (second : KeepsCensus w' w'') :
    KeepsCensus w w'' :=
  fun ids before right => second ids before (first ids before right)

theorem of_same (ids : w'.scene.ids = w.scene.ids) (notices : w'.notices = w.notices) :
    KeepsCensus w w' := by
  intro before told right
  rw [Listed, notices, ids]
  exact right

end KeepsCensus

variable (owner : ObjectId) (w : World)

end World

namespace World

namespace KeepsCount

variable {w w' : World}

end KeepsCount
end World

namespace Session

variable {s : Session}

section Example

end Example

end Session
end BlockStage
