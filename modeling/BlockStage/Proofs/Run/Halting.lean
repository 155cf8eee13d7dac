import BlockStage.Proofs.Run.Drive

/-! How a drive comes to its halt. Whatever the program, the work of a stack bounds the moves it
makes; a drive that suspends leaves a frame to go on with and room to do so. -/

namespace BlockStage.Task

variable (program : Program) (owner : ObjectId)

/-- The stack and the world after `n` moves; `none` if the stack halts before. -/
def after? : (n : Nat) → List Frame → World → Option (List Frame × World)
  | 0, frames, w => some (frames, w)
  | n + 1, frames, w =>
    match step program owner frames w with
    | (.go frames', w') => after? n frames' w'
    | (.spawn frames' _, w') => after? n frames' w'
    | _ => none

variable {program owner} {frames frames' last : List Frame} {spawned : List Frame} {w w' : World}

theorem work_of_after? {n : Nat} (h : after? program owner n frames w = some (last, w')) :
    n + work owner program last ≤ work owner program frames := by
  induction n generalizing frames w with
  | zero =>
    obtain ⟨rfl, rfl⟩ := Prod.mk.inj (Option.some.inj h)
    omega
  | succ n ih =>
    rw [after?] at h
    split at h
    · rename_i frames' w₁ move
      have left := ih h
      have less : work owner program frames' < work owner program frames :=
        work_step (by rw [move]; rfl)
      omega
    · rename_i frames' frame w₁ move
      have left := ih h
      have less : work owner program frames' < work owner program frames :=
        work_step (by rw [move]; rfl)
      omega
    · contradiction

theorem Passes.exists_after? (h : Passes program owner frames w spawned last w') :
    ∃ n, ∀ k, after? program owner (n + k) frames w = after? program owner k last w' := by
  induction h with
  | refl frames w => exact ⟨0, fun k => by rw [Nat.zero_add]⟩
  | go move _ ih =>
    obtain ⟨n, hn⟩ := ih
    exact ⟨n + 1, fun k => by
      rw [Nat.add_right_comm, after?, move]
      exact hn k⟩
  | spawn move _ ih =>
    obtain ⟨n, hn⟩ := ih
    exact ⟨n + 1, fun k => by
      rw [Nat.add_right_comm, after?, move]
      exact hn k⟩

theorem after?_of_halt (halts : (step program owner last w).1.ahead? = none) (k : Nat) :
    after? program owner (k + 1) last w = none := by
  rcases h : step program owner last w with ⟨move, w'⟩
  rw [h] at halts
  rw [after?, h]
  cases move with
  | go frames => simp [Move.ahead?] at halts
  | spawn frames frame => simp [Move.ahead?] at halts
  | suspend frames wake => rfl
  | finish => rfl

/-- A stack that suspends was not too high and keeps the frame that asked for it. -/
theorem frames_of_suspend {wake : Wake}
    (h : step program owner frames w = (.suspend frames' wake, w')) :
    frames' ≠ [] ∧ frames'.length ≤ mostFrames := by
  cases steps_of_step h with
  | rest ready => exact ⟨by simp, ready.2⟩
  | suspend ready => exact ⟨by simp, ready.2⟩

theorem frames_of_drive {q : Queue Frame} {wake : Wake}
    (h : (drive program owner frames q w).suspended = some (frames', wake)) :
    frames' ≠ [] ∧ frames'.length ≤ mostFrames := by
  obtain ⟨spawned, last, w₁, -, ⟨left, wake', w', move, eq⟩ | ⟨w', -, eq⟩⟩ :=
    drive_eq program owner frames w
  · rw [eq, Option.some.injEq, Prod.mk.injEq] at h
    obtain ⟨rfl, rfl⟩ := h
    exact frames_of_suspend move
  · rw [eq] at h
    contradiction

/-- Every drive comes to its halt, after no more moves than there is work in its stack: there it is
suspended, with frames to go on with, or it is over. -/
theorem drive_reaches_halt (program : Program) (owner : ObjectId) (frames : List Frame)
    (w : World) :
    ∃ n ≤ work owner program frames, ∃ last w₁,
      after? program owner n frames w = some (last, w₁) ∧
      (∀ m, n < m → after? program owner m frames w = none) ∧
      ((∃ left wake w', step program owner last w₁ = (.suspend left wake, w') ∧ left ≠ [] ∧
          ∀ q, (drive program owner frames q w).suspended = some (left, wake) ∧
            (drive program owner frames q w).world = w') ∨
        ∃ w', step program owner last w₁ = (.finish, w') ∧
          ∀ q, (drive program owner frames q w).suspended = none ∧
            (drive program owner frames q w).world = w') := by
  obtain ⟨spawned, last, w₁, path, ends⟩ := drive_eq program owner frames w
  obtain ⟨n, hn⟩ := path.exists_after?
  have reached : after? program owner n frames w = some (last, w₁) := hn 0
  have halts : (step program owner last w₁).1.ahead? = none := by
    rcases ends with ⟨left, wake, w', move, -⟩ | ⟨w', move, -⟩ <;> rw [move] <;> rfl
  refine ⟨n, ?_, last, w₁, reached, fun m less => ?_, ?_⟩
  · have bound := work_of_after? reached
    omega
  · obtain ⟨k, rfl⟩ := Nat.exists_eq_add_of_lt less
    rw [Nat.add_assoc, hn, after?_of_halt halts]
  · rcases ends with ⟨left, wake, w', move, eq⟩ | ⟨w', move, eq⟩
    · exact .inl ⟨left, wake, w', move, (frames_of_suspend move).1, fun q => by simp [eq]⟩
    · exact .inr ⟨w', move, fun q => by simp [eq]⟩

end BlockStage.Task
