import BlockStage.Proofs.Run.Frames
import BlockStage.Proofs.Scene.Ids

/-! Tasks that keep to their own objects. Such a task changes its owner and reads nothing that the
task of another object changes, so that it does not matter which of the two is driven first. -/

namespace BlockStage

/-! ### Changes of single objects -/

def SceneObject.KeepsId (f : SceneObject → SceneObject) : Prop := ∀ o, (f o).id = o.id

open SceneObject (KeepsId)

namespace Scene

variable (s : Scene) {id other : ObjectId} {f g : SceneObject → SceneObject}

theorem modify_id (id : ObjectId) : s.modify id (fun o => o) = s := by
  obtain ⟨objects, nextId, spawnPoint⟩ := s
  simp only [modify, mk.injEq, and_self, and_true]
  induction objects with
  | nil => rfl
  | cons o rest ih => rw [modifyFirst, ih, ite_self]

theorem modify_modify (keeps : KeepsId f) :
    (s.modify id f).modify id g = s.modify id fun o => g (f o) := by
  simp only [modify, mk.injEq, and_self, and_true]
  induction s.objects with
  | nil => rfl
  | cons o rest ih =>
    by_cases h : o.id = id
    · simp [modifyFirst, h, keeps o]
    · simp [modifyFirst, h, ih]

theorem modify_comm (ne : id ≠ other) (keeps : KeepsId f) (keeps' : KeepsId g) :
    (s.modify id f).modify other g = (s.modify other g).modify id f := by
  simp only [modify, mk.injEq, and_self, and_true]
  induction s.objects with
  | nil => rfl
  | cons o rest ih =>
    by_cases h : o.id = id
    · have h' : o.id ≠ other := h ▸ ne
      simp [modifyFirst, h, ne, keeps o]
    · by_cases h' : o.id = other
      · simp [modifyFirst, h', ne.symm, keeps' o]
      · simp [modifyFirst, h, h', ih]

end Scene

namespace World

variable (w : World) {id other : ObjectId} {f g : SceneObject → SceneObject}

theorem modifyObject_id (id : ObjectId) : w.modifyObject id (fun o => o) = w := by
  simp only [modifyObject, Scene.modify_id]

theorem modifyObject_modifyObject (keeps : KeepsId f) :
    (w.modifyObject id f).modifyObject id g = w.modifyObject id fun o => g (f o) := by
  simp only [modifyObject, Scene.modify_modify _ keeps]

theorem modifyObject_comm (ne : id ≠ other) (keeps : KeepsId f) (keeps' : KeepsId g) :
    (w.modifyObject id f).modifyObject other g = (w.modifyObject other g).modifyObject id f := by
  simp only [modifyObject, w.scene.modify_comm ne keeps keeps']

/-- At most the object `owner` is another one. -/
def Changed (owner : ObjectId) (w w' : World) : Prop :=
  ∃ f, KeepsId f ∧ w' = w.modifyObject owner f

theorem Changed.refl (owner : ObjectId) : Changed owner w w :=
  ⟨fun o => o, fun _ => rfl, (w.modifyObject_id owner).symm⟩

theorem Changed.trans {owner : ObjectId} {w w' w'' : World} (h : Changed owner w w')
    (h' : Changed owner w' w'') : Changed owner w w'' := by
  obtain ⟨f, keeps, rfl⟩ := h
  obtain ⟨g, keeps', rfl⟩ := h'
  exact ⟨fun o => g (f o), fun o => (keeps' (f o)).trans (keeps o),
    w.modifyObject_modifyObject keeps⟩

end World

/-! ### What keeps to its own object -/

/-- A command that reads and changes nothing of the scene but its owner, and nothing else of the
world at all except in its conditions. -/
def Command.Confined : Command → Prop
  | edit _ | lookAtPlayer | wait _ | repeatTimes _ | forever | stop | call _ => True
  | waitUntil condition | ifThen condition | ifElse condition | whileHolds condition =>
    condition.Certain
  | _ => False

namespace Frame

def Loops : Frame → Prop
  | whileHolds condition _ _ => condition.Certain
  | forEach _ _ _ _ => False
  | _ => True

/-- A frame with nothing but confined commands, in its blocks and in the definitions they call. -/
def Confined (program : Program) (owner : ObjectId) (f : Frame) : Prop :=
  f.Loops ∧ ∀ i, Comes program owner f.code i → i.command.Confined

theorem loops_of_framesFor {program : Program} {owner : ObjectId} {i : Instruction} {f : Frame}
    (confined : i.command.Confined) (h : f ∈ i.framesFor owner program) : f.Loops := by
  cases Instruction.enters_of_mem h with
  | body => trivial
  | otherwise => trivial
  | definition => trivial
  | repeatTimes => trivial
  | whileHolds command => rwa [command] at confined
  | forEach command => rw [command] at confined; exact confined.elim

theorem handedOn_confined (program : Program) (owner : ObjectId) :
    HandedOn program owner (Confined program owner) where
  loop {f} := by cases f <;> rfl
  body h := ⟨trivial, h.2⟩
  tail h := ⟨trivial, fun i comes => h.2 i comes.of_tail⟩
  enter h entered :=
    ⟨loops_of_framesFor (h.2 _ (.here List.mem_cons_self)) entered,
      fun i comes => h.2 i (.inside List.mem_cons_self entered comes)⟩

end Frame

/-! ### One task -/

variable {program : Program} {owner other : ObjectId} {f : SceneObject → SceneObject}

namespace Condition

theorem holds_modifyObject (condition : Condition) (w : World) (ne : owner ≠ other)
    (keeps : KeepsId f) :
    condition.holds owner (w.modifyObject other f) =
      ((condition.holds owner w).1, (condition.holds owner w).2.modifyObject other f) := by
  have found : (w.modifyObject other f).scene.find? owner = w.scene.find? owner :=
    w.scene.find?_modify_of_ne ne.symm fun o _ => keeps o
  cases condition with
  | nearPlayer distance | farFromPlayer distance =>
    simp only [holds, World.distanceToPlayer?, found]
    rfl
  | _ => rfl

end Condition

namespace Instruction

theorem changed_of_execute {i : Instruction} {w w' : World} {flow : Flow}
    (confined : i.command.Confined) (h : i.execute owner program w = (flow, w')) :
    World.Changed owner w w' := by
  have asked {condition : Condition} (certain : condition.Certain) :
      condition.holds owner w = ((condition.holds owner w).1, w) :=
    Prod.ext rfl (Condition.holds_of_certain certain owner w)
  obtain ⟨opcode, arguments, kind, command, children, elseChildren⟩ := i
  cases command with
  | edit change =>
    obtain ⟨-, rfl⟩ := Prod.mk.inj h
    exact ⟨change.apply, change.apply_id, rfl⟩
  | lookAtPlayer =>
    obtain ⟨-, rfl⟩ := Prod.mk.inj h
    exact ⟨World.faceTo w.player.position, fun _ => rfl, rfl⟩
  | wait | forever | stop =>
    obtain ⟨-, rfl⟩ := Prod.mk.inj h
    exact .refl w owner
  | waitUntil condition | ifThen condition | ifElse condition =>
    simp only [execute] at h
    rw [asked confined] at h
    split at h
    all_goals
      rename_i eq
      obtain ⟨-, rfl⟩ := Prod.mk.inj eq
      obtain ⟨-, rfl⟩ := Prod.mk.inj h
      exact .refl w owner
  | whileHolds condition =>
    obtain ⟨-, rfl⟩ := Prod.mk.inj h
    exact .refl w owner
  | repeatTimes count =>
    simp only [execute] at h
    split at h
    all_goals
      obtain ⟨-, rfl⟩ := Prod.mk.inj h
      exact .refl w owner
  | call name =>
    simp only [execute] at h
    split at h
    all_goals
      obtain ⟨-, rfl⟩ := Prod.mk.inj h
      exact .refl w owner
  | _ => exact confined.elim

theorem execute_modifyObject (i : Instruction) (w : World) (confined : i.command.Confined)
    (ne : owner ≠ other) (keeps : KeepsId f) :
    i.execute owner program (w.modifyObject other f) =
      ((i.execute owner program w).1, (i.execute owner program w).2.modifyObject other f) := by
  have asked (condition : Condition) := condition.holds_modifyObject w ne keeps
  obtain ⟨opcode, arguments, kind, command, children, elseChildren⟩ := i
  cases command with
  | edit change =>
    exact congrArg (Flow.next, ·) (w.modifyObject_comm ne.symm keeps change.apply_id)
  | lookAtPlayer =>
    exact congrArg (Flow.next, ·) (w.modifyObject_comm ne.symm keeps fun _ => rfl)
  | waitUntil condition | ifThen condition | ifElse condition =>
    simp only [execute, asked]
    rcases condition.holds owner w with ⟨_ | _, w'⟩ <;> rfl
  | repeatTimes count =>
    simp only [execute]
    split <;> rfl
  | call name =>
    simp only [execute]
    split <;> rfl
  | wait | forever | stop | whileHolds => rfl
  | _ => exact confined.elim

end Instruction

namespace Frame

theorem world_of_advance {top : Frame} {w w' : World} {ask : Advance} (loops : top.Loops)
    (h : top.advance owner w = (ask, w')) : w' = w := by
  cases top with
  | sequence rest => cases rest <;> exact (Prod.mk.inj h).2.symm
  | repeatTimes body left => cases left <;> exact (Prod.mk.inj h).2.symm
  | forever body resting => cases resting <;> exact (Prod.mk.inj h).2.symm
  | whileHolds condition body resting =>
    cases resting with
    | true => exact (Prod.mk.inj h).2.symm
    | false =>
      have same : (condition.holds owner w).2 = w := Condition.holds_of_certain loops owner w
      simp only [advance] at h
      split at h
      all_goals
        rename_i asked
        rw [asked] at same
        exact (Prod.mk.inj h).2.symm.trans same
  | forEach counter next last body => exact loops.elim

theorem advance_modifyObject (top : Frame) (w : World) (loops : top.Loops) (ne : owner ≠ other)
    (keeps : KeepsId f) :
    top.advance owner (w.modifyObject other f) =
      ((top.advance owner w).1, (top.advance owner w).2.modifyObject other f) := by
  cases top with
  | sequence rest => cases rest <;> rfl
  | repeatTimes body left => cases left <;> rfl
  | forever body resting => cases resting <;> rfl
  | whileHolds condition body resting =>
    cases resting with
    | true => rfl
    | false =>
      simp only [advance, condition.holds_modifyObject w ne keeps]
      rcases condition.holds owner w with ⟨_ | _, w'⟩ <;> rfl
  | forEach counter next last body => exact loops.elim

end Frame

namespace Task

variable {frames : List Frame}

theorem changed_of_step {w w' : World} {move : Move}
    (confined : ∀ top ∈ frames, top.Confined program owner)
    (h : step program owner frames w = (move, w')) : World.Changed owner w w' := by
  have advanced {top : Frame} {below : List Frame} {ask : Frame.Advance}
      (confined : ∀ g ∈ top :: below, g.Confined program owner)
      (h : top.advance owner w = (ask, w')) : World.Changed owner w w' :=
    Frame.world_of_advance (confined top List.mem_cons_self).1 h ▸ .refl w owner
  have executed {i : Instruction} {rest : List Instruction} {below : List Frame} {flow : Flow}
      (confined : ∀ g ∈ Frame.sequence (i :: rest) :: below, g.Confined program owner)
      (h : i.execute owner program w = (flow, w')) : World.Changed owner w w' :=
    Instruction.changed_of_execute
      ((confined _ List.mem_cons_self).2 i (.here List.mem_cons_self)) h
  cases steps_of_step h with
  | empty | givenUp => exact .refl w owner
  | pop _ advance | push _ advance | rest _ advance => exact advanced confined advance
  | next _ execute | enter _ execute | spawn _ execute | suspend _ execute | stop _ execute =>
    exact executed confined execute

theorem changed_of_drive (confined : ∀ top ∈ frames, top.Confined program owner)
    (q : Queue Frame) (w : World) :
    World.Changed owner w (drive program owner frames q w).world := by
  have handed := Frame.handedOn_confined program owner
  fun_induction drive program owner frames q w with
  | case1 frames q w frames' w' move ih =>
    exact (changed_of_step confined move).trans (ih (handed.of_step confined move))
  | case2 frames q w frames' frame w' move ih =>
    exact (changed_of_step confined move).trans (ih (handed.of_step confined move))
  | case3 frames q w frames' wake w' move => exact changed_of_step confined move
  | case4 frames q w w' move => exact changed_of_step confined move

theorem unnoticed_modifyObject (program : Program) (ne : owner ≠ other) (keeps : KeepsId f) :
    Unnoticed program owner (Frame.Confined program owner) (·.modifyObject other f) where
  toHandedOn := Frame.handedOn_confined program owner
  running _ := rfl
  advance w confined := Frame.advance_modifyObject _ w confined.1 ne keeps
  execute w confined :=
    Instruction.execute_modifyObject _ w (confined.2 _ (.here List.mem_cons_self)) ne keeps

/-! ### Two tasks -/

/-- Tasks of two objects that keep to their objects can be driven in either order: the world in the
end is the same, and each of them halts in the same way and spawns the same frames. -/
theorem confined_drives_commute {owner₁ owner₂ : ObjectId} (ne : owner₁ ≠ owner₂)
    {frames₁ frames₂ : List Frame}
    (confined₁ : ∀ top ∈ frames₁, top.Confined program owner₁)
    (confined₂ : ∀ top ∈ frames₂, top.Confined program owner₂)
    (q₁ q₂ : Queue Frame) (w : World) :
    let first := drive program owner₁ frames₁ q₁ w
    let second := drive program owner₂ frames₂ q₂ w
    let firstLater := drive program owner₁ frames₁ q₁ second.world
    let secondLater := drive program owner₂ frames₂ q₂ first.world
    secondLater.world = firstLater.world ∧
      (firstLater.suspended = first.suspended ∧ firstLater.spawned = first.spawned) ∧
      secondLater.suspended = second.suspended ∧ secondLater.spawned = second.spawned := by
  intro first second firstLater secondLater
  obtain ⟨f₁, keeps₁, change₁⟩ := changed_of_drive confined₁ q₁ w
  obtain ⟨f₂, keeps₂, change₂⟩ := changed_of_drive confined₂ q₂ w
  have later₁ : firstLater = { first with world := first.world.modifyObject owner₂ f₂ } := by
    rw [← (unnoticed_modifyObject program ne keeps₂).drive confined₁ q₁ w, ← change₂]
  have later₂ : secondLater = { second with world := second.world.modifyObject owner₁ f₁ } := by
    rw [← (unnoticed_modifyObject program ne.symm keeps₁).drive confined₂ q₂ w, ← change₁]
  have worlds : secondLater.world = firstLater.world := by
    rw [later₁, later₂]
    change second.world.modifyObject owner₁ f₁ = first.world.modifyObject owner₂ f₂
    rw [show second.world = _ from change₂, show first.world = _ from change₁]
    exact w.modifyObject_comm ne.symm keeps₂ keeps₁
  exact ⟨worlds, by rw [later₁]; exact ⟨rfl, rfl⟩, by rw [later₂]; exact ⟨rfl, rfl⟩⟩

section Example

/-- Two objects of which one runs along and the other hides from the player. -/
def tag : World :=
  { World.ofConfig {} with
    scene := { objects := [{ id := ⟨1⟩ }, { id := ⟨2⟩ }], nextId := 3 }, running := true }

def hurry : Instruction := ⟨.move, [], .command, .edit (.move ⟨1, 0, 0⟩), [], []⟩

def vanish : Instruction := ⟨.vanish, [], .command, .edit (.setVisible false), [], []⟩

def vanishNear : Instruction := ⟨.ifThen, [], .container, .ifThen (.nearPlayer 5), [vanish], []⟩

def hurrying : List Frame := [.forever [hurry] true]

def ducking : List Frame := [.sequence [vanishNear]]

theorem confined_hurrying : ∀ top ∈ hurrying, top.Confined {} ⟨1⟩ := by
  intro top h
  obtain rfl := List.mem_singleton.1 h
  refine ⟨trivial, fun i comes => ?_⟩
  cases comes with
  | here h => obtain rfl := List.mem_singleton.1 h; trivial
  | inside h entered _ =>
    obtain rfl := List.mem_singleton.1 h
    simp [Instruction.framesFor, hurry] at entered

theorem confined_ducking : ∀ top ∈ ducking, top.Confined {} ⟨2⟩ := by
  intro top h
  obtain rfl := List.mem_singleton.1 h
  refine ⟨trivial, fun i comes => ?_⟩
  cases comes with
  | here h => obtain rfl := List.mem_singleton.1 h; trivial
  | inside h entered later =>
    obtain rfl := List.mem_singleton.1 h
    obtain rfl := List.mem_singleton.1 entered
    cases later with
    | here h => obtain rfl := List.mem_singleton.1 h; trivial
    | inside h entered _ =>
      obtain rfl := List.mem_singleton.1 h
      simp [Instruction.framesFor, vanish] at entered

theorem hurrying_ducking_commute :
    let run := fun w => drive {} ⟨1⟩ hurrying {} w
    let hide := fun w => drive {} ⟨2⟩ ducking {} w
    (⟨1⟩ : ObjectId) ≠ ⟨2⟩ ∧ (∀ top ∈ hurrying, top.Confined {} ⟨1⟩) ∧
      (∀ top ∈ ducking, top.Confined {} ⟨2⟩) ∧
      (hide (run tag).world).world = (run (hide tag).world).world ∧
      (run (hide tag).world).suspended = (run tag).suspended ∧
      (hide (run tag).world).suspended = (hide tag).suspended := by
  have ne : (⟨1⟩ : ObjectId) ≠ ⟨2⟩ := by decide
  obtain ⟨worlds, ⟨runs, -⟩, hides, -⟩ :=
    confined_drives_commute ne confined_hurrying confined_ducking {} {} tag
  exact ⟨ne, confined_hurrying, confined_ducking, worlds, runs, hides⟩

end Example

end Task
end BlockStage
