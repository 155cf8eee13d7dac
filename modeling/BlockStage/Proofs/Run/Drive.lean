import BlockStage.Proofs.Run.Keeping

/-! Drives as paths: `Passes` lists the moves with which a stack goes on, together with the frames
that it spawns. Every drive is one such path and a last move that halts. -/

namespace BlockStage

namespace Queue

variable {α : Type}

def pushAll (q : Queue α) (items : List α) : Queue α := items.foldl push q

@[simp] theorem toList_pushAll (q : Queue α) (items : List α) :
    (q.pushAll items).toList = q.toList ++ items := by
  induction items generalizing q with
  | nil => simp [pushAll]
  | cons a items ih =>
    have pushed := ih (q.push a)
    rw [toList_push, List.append_assoc] at pushed
    exact pushed

end Queue

namespace Task

/-- The stack goes from `frames` to another one in some moves, and spawns a list of frames. -/
inductive Passes (program : Program) (owner : ObjectId) :
    List Frame → World → List Frame → List Frame → World → Prop
  | refl (frames : List Frame) (w : World) : Passes program owner frames w [] frames w
  | go {frames frames' last spawned : List Frame} {w w' w'' : World}
      (move : step program owner frames w = (.go frames', w'))
      (rest : Passes program owner frames' w' spawned last w'') :
      Passes program owner frames w spawned last w''
  | spawn {frames frames' last spawned : List Frame} {frame : Frame} {w w' w'' : World}
      (move : step program owner frames w = (.spawn frames' frame, w'))
      (rest : Passes program owner frames' w' spawned last w'') :
      Passes program owner frames w (frame :: spawned) last w''

variable {program : Program} {owner : ObjectId} {frames frames' frames'' : List Frame}
  {spawned spawned' : List Frame} {w w' w'' : World}

theorem Passes.trans (first : Passes program owner frames w spawned frames' w')
    (second : Passes program owner frames' w' spawned' frames'' w'') :
    Passes program owner frames w (spawned ++ spawned') frames'' w'' := by
  induction first with
  | refl => exact second
  | go move _ ih => exact .go move (ih second)
  | spawn move _ ih => exact .spawn move (ih second)

theorem Passes.single_go (move : step program owner frames w = (.go frames', w')) :
    Passes program owner frames w [] frames' w' := .go move (.refl frames' w')

theorem Passes.evolves (h : Passes program owner frames w spawned frames' w') :
    Evolves w w' := by
  induction h with
  | refl _ w => exact .refl w
  | @go frames _ _ _ w _ _ move _ ih =>
    have moved := kept_evolves.step program owner frames w
    rw [move] at moved
    exact moved.trans ih
  | @spawn frames _ _ _ _ w _ _ move _ ih =>
    have moved := kept_evolves.step program owner frames w
    rw [move] at moved
    exact moved.trans ih

/-! ### Drives -/

theorem drive_go (h : step program owner frames w = (.go frames', w')) (q : Queue Frame) :
    drive program owner frames q w = drive program owner frames' q w' := by
  rw [drive]
  split <;> simp_all

theorem drive_spawn {frame : Frame} (h : step program owner frames w = (.spawn frames' frame, w'))
    (q : Queue Frame) :
    drive program owner frames q w = drive program owner frames' (q.push frame) w' := by
  rw [drive]
  split <;> simp_all

theorem drive_suspend {wake : Wake}
    (h : step program owner frames w = (.suspend frames' wake, w')) (q : Queue Frame) :
    drive program owner frames q w = ⟨some (frames', wake), q, w'⟩ := by
  rw [drive]
  split <;> simp_all

theorem drive_finish (h : step program owner frames w = (.finish, w')) (q : Queue Frame) :
    drive program owner frames q w = ⟨none, q, w'⟩ := by
  rw [drive]
  split <;> simp_all

theorem drive_passes (h : Passes program owner frames w spawned frames' w') (q : Queue Frame) :
    drive program owner frames q w = drive program owner frames' (q.pushAll spawned) w' := by
  induction h generalizing q with
  | refl => rfl
  | go move _ ih => rw [drive_go move, ih]
  | spawn move _ ih =>
    rw [drive_spawn move, ih]
    rfl

theorem exists_last_move (program : Program) (owner : ObjectId) (frames : List Frame) (w : World) :
    ∃ spawned last w', Passes program owner frames w spawned last w' ∧
      (step program owner last w').1.ahead? = none := by
  fun_induction drive program owner frames {} w with
  | case1 frames q w frames' w' move ih =>
    obtain ⟨spawned, last, w'', path, halts⟩ := ih
    exact ⟨spawned, last, w'', .go move path, halts⟩
  | case2 frames q w frames' frame w' move ih =>
    obtain ⟨spawned, last, w'', path, halts⟩ := ih
    exact ⟨frame :: spawned, last, w'', .spawn move path, halts⟩
  | case3 frames q w frames' wake w' move =>
    exact ⟨[], frames, w, .refl frames w, by rw [move]; rfl⟩
  | case4 frames q w w' move =>
    exact ⟨[], frames, w, .refl frames w, by rw [move]; rfl⟩

/-- A drive as a path and a last move; what was spawned before waits in front. -/
theorem drive_eq (program : Program) (owner : ObjectId) (frames : List Frame) (w : World) :
    ∃ spawned last w₁, Passes program owner frames w spawned last w₁ ∧
      ((∃ frames' wake w', step program owner last w₁ = (.suspend frames' wake, w') ∧
          ∀ q, drive program owner frames q w = ⟨some (frames', wake), q.pushAll spawned, w'⟩) ∨
        ∃ w', step program owner last w₁ = (.finish, w') ∧
          ∀ q, drive program owner frames q w = ⟨none, q.pushAll spawned, w'⟩) := by
  obtain ⟨spawned, last, w₁, path, halts⟩ := exists_last_move program owner frames w
  refine ⟨spawned, last, w₁, path, ?_⟩
  rcases hm : step program owner last w₁ with ⟨move, w'⟩
  rw [hm] at halts
  cases move with
  | go frames' => simp [Move.ahead?] at halts
  | spawn frames' frame => simp [Move.ahead?] at halts
  | suspend frames' wake =>
    exact .inl ⟨frames', wake, w', rfl, fun q => by rw [drive_passes path, drive_suspend hm]⟩
  | finish => exact .inr ⟨w', rfl, fun q => by rw [drive_passes path, drive_finish hm]⟩

end Task
end BlockStage
