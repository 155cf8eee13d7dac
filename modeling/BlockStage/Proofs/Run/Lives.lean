import BlockStage.Proofs.Run.Spawning

/-! The life of a task, step by step and over all its rests, while others change the world in
between. Whatever the frames on top do, those below them stay as they are. -/

namespace BlockStage

namespace Task

structure Pace where
  stack : List Frame
  world : World

variable (program : Program) (owner : ObjectId)

def Pace.move (p : Pace) : Move := (step program owner p.stack p.world).1

def Pace.outcome (p : Pace) : World := (step program owner p.stack p.world).2

/-- A part of a task's life, from one stack to another. Each step finds a world of its own, which is
what the step before it has left and all others have made of it since. -/
inductive Life : List Frame → List Pace → List Frame → Prop
  | refl (frames : List Frame) : Life frames [] frames
  | step {frames last : List Frame} {paces : List Pace} (w : World)
      (lives : (Task.step program owner frames w).1 ≠ .finish)
      (later : Life (Task.step program owner frames w).1.left paces last) :
      Life frames (⟨frames, w⟩ :: paces) last

variable {program owner} {frames frames' last last' : List Frame} {paces paces' : List Pace}
  {w w' : World} {move : Move}

protected theorem Life.trans (first : Life program owner frames paces last)
    (second : Life program owner last paces' last') :
    Life program owner frames (paces ++ paces') last' := by
  induction first with
  | refl => exact second
  | step w lives _ ih => exact .step w lives (ih second)

theorem Life.cons (made : Task.step program owner frames w = (move, w')) (lives : move ≠ .finish)
    (later : Life program owner move.left paces last) :
    Life program owner frames (⟨frames, w⟩ :: paces) last := by
  have same : (Task.step program owner frames w).1 = move := by rw [made]
  exact .step w (same ▸ lives) (same ▸ later)

theorem life_of_passes {spawned : List Frame}
    (h : Passes program owner frames w spawned frames' w') :
    ∃ paces, Life program owner frames paces frames' := by
  induction h with
  | refl frames w => exact ⟨[], .refl frames⟩
  | go move _ ih =>
    obtain ⟨paces, later⟩ := ih
    exact ⟨_, .cons move (by simp) later⟩
  | spawn move _ ih =>
    obtain ⟨paces, later⟩ := ih
    exact ⟨_, .cons move (by simp) later⟩

theorem life_of_drive {q : Queue Frame} {wake : Wake}
    (h : (drive program owner frames q w).suspended = some (frames', wake)) :
    ∃ paces, Life program owner frames paces frames' := by
  obtain ⟨spawned, last, w₁, path, ⟨left, wake', w', move, eq⟩ | ⟨w', -, eq⟩⟩ :=
    drive_eq program owner frames w
  · rw [eq, Option.some.injEq, Prod.mk.injEq] at h
    obtain ⟨rfl, rfl⟩ := h
    obtain ⟨paces, before⟩ := life_of_passes path
    exact ⟨_, before.trans (.cons move (by simp) (.refl left))⟩
  · rw [eq] at h
    contradiction

/-! ### What lies below -/

theorem exists_left_append {above base : List Frame} (nonempty : above ≠ [])
    (made : step program owner (above ++ base) w = (move, w')) (lives : move ≠ .finish) :
    ∃ above', move.left = above' ++ base := by
  obtain ⟨top, rest, rfl⟩ := List.exists_cons_of_ne_nil nonempty
  rw [List.cons_append] at made
  cases steps_of_step made with
  | givenUp | stop => contradiction
  | pop => exact ⟨rest, rfl⟩
  | @push _ self body => exact ⟨.sequence body :: self :: rest, rfl⟩
  | @rest _ self => exact ⟨self :: rest, rfl⟩
  | @enter _ later frame => exact ⟨frame :: .sequence later :: rest, rfl⟩
  | @next _ later | @spawn _ later | @suspend _ later => exact ⟨.sequence later :: rest, rfl⟩

end Task

/-- As long as a visit leaves something of a task, that lives on. -/
theorem Scheduler.life_of_visit {program : Program} {t t' : Task} {w : World}
    (h : (visit program t w).1 = some t') :
    ∃ paces, Task.Life program t.owner t.frames paces t'.frames := by
  unfold visit at h
  split at h
  · split at h
    · obtain rfl := Option.some.inj h
      exact ⟨[], .refl t.frames⟩
    · obtain ⟨⟨frames, wake⟩, suspended, rfl⟩ := Option.map_eq_some_iff.1 h
      exact Task.life_of_drive suspended
  · contradiction

end BlockStage
