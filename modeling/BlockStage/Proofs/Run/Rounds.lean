import BlockStage.Proofs.Run.Drive
import BlockStage.Run.Scheduler
import Mathlib.Logic.Function.Iterate

/-! The loop that starts waiting frames, one round for each of them. A round drops its frame,
leaves one more suspended task, or ends a task within its first drive; only rounds of the last kind
can keep the loop going for ever. -/

namespace BlockStage.Scheduler

/-- Starts under way: the frames that still wait for a task, the tasks so far, and the world. -/
structure Starting where
  waiting : Queue Frame
  scheduler : Scheduler
  world : World

namespace Starting

variable (program : Program) (owner : ObjectId)

/-- One round. Once nothing waits there is nothing to do. -/
def next (x : Starting) : Starting :=
  match x.waiting.pop? with
  | none => x
  | some (frame, waiting) =>
    let (waiting, scheduler, world) := startNext program owner frame waiting x.scheduler x.world
    ⟨waiting, scheduler, world⟩

def Returns (x : Starting) : Prop := ∃ n, ((next program owner)^[n] x).waiting.toList = []

/-- The next frame gets a task that is over within its first drive. -/
def EndsAtOnce (x : Starting) : Prop :=
  ∃ frame waiting, x.waiting.pop? = some (frame, waiting) ∧
    x.scheduler.tasks.length < x.world.config.mostTasks ∧
    (Task.drive program owner [frame] waiting x.world).suspended = none

variable {program owner}

theorem next_of_pop? {x : Starting} {frame : Frame} {waiting : Queue Frame}
    (h : x.waiting.pop? = some (frame, waiting)) :
    next program owner x =
      let y := startNext program owner frame waiting x.scheduler x.world
      ⟨y.1, y.2.1, y.2.2⟩ := by
  simp only [next, h]

theorem next_of_empty {x : Starting} (h : x.waiting.toList = []) : next program owner x = x := by
  cases hp : x.waiting.pop? with
  | none => simp only [next, hp]
  | some popped =>
    have := Queue.toList_of_pop? hp
    simp_all

theorem iterate_of_empty {x : Starting} (h : x.waiting.toList = []) (n : Nat) :
    (next program owner)^[n] x = x := by
  induction n with
  | zero => rfl
  | succ n ih => rw [Function.iterate_succ_apply, next_of_empty h, ih]

theorem iterate_eq_of_empty {x : Starting} {m n : Nat}
    (hm : ((next program owner)^[m] x).waiting.toList = [])
    (hn : ((next program owner)^[n] x).waiting.toList = []) :
    (next program owner)^[m] x = (next program owner)^[n] x := by
  rcases Nat.le_total m n with le | le
  · obtain ⟨k, rfl⟩ := Nat.exists_eq_add_of_le' le
    rw [Function.iterate_add_apply, iterate_of_empty hm]
  · obtain ⟨k, rfl⟩ := Nat.exists_eq_add_of_le' le
    rw [Function.iterate_add_apply, iterate_of_empty hn]

theorem startAll_eq_iterate (supply : Nat) (waiting : Queue Frame) (s : Scheduler) (w : World) :
    startAll program owner supply waiting s w =
      (((next program owner)^[supply] ⟨waiting, s, w⟩).scheduler,
        ((next program owner)^[supply] ⟨waiting, s, w⟩).world) := by
  induction supply generalizing waiting s w with
  | zero => rfl
  | succ supply ih =>
    rw [startAll, Function.iterate_succ_apply]
    cases hp : waiting.pop? with
    | none =>
      have empty := Queue.pop?_eq_none hp
      rw [next_of_empty empty, iterate_of_empty empty]
    | some popped =>
      simp only [ih, next, hp]

theorem config_next (x : Starting) : (next program owner x).world.config = x.world.config := by
  unfold next
  split
  · rfl
  · rename_i frame waiting _
    simp only [startNext]
    split
    · rfl
    · exact (kept_evolves.drive program owner [frame] waiting x.world).config

theorem next_of_not_endsAtOnce {x : Starting} (some_wait : x.waiting.toList ≠ [])
    (h : ¬ EndsAtOnce program owner x) :
    ((next program owner x).scheduler.tasks.length = x.scheduler.tasks.length ∧
        (next program owner x).waiting.toList.length < x.waiting.toList.length) ∨
      (x.scheduler.tasks.length < x.world.config.mostTasks ∧
        (next program owner x).scheduler.tasks.length = x.scheduler.tasks.length + 1) := by
  cases hp : x.waiting.pop? with
  | none => exact absurd (Queue.pop?_eq_none hp) some_wait
  | some popped =>
    obtain ⟨frame, waiting⟩ := popped
    have shorter := Queue.toList_of_pop? hp
    rw [next_of_pop? hp]
    by_cases full : x.world.config.mostTasks ≤ x.scheduler.tasks.length
    · simp [startNext, full, shorter]
    · have free : x.scheduler.tasks.length < x.world.config.mostTasks := by omega
      cases hs : (Task.drive program owner [frame] waiting x.world).suspended with
      | none => exact absurd ⟨frame, waiting, hp, free, hs⟩ h
      | some left => exact .inr ⟨free, by simp [startNext, full, hs]⟩

/-- Without such ends the loop returns: the free places run out, and then the queue does. -/
theorem returns_of_no_end (x : Starting)
    (h : ∀ n, ¬ EndsAtOnce program owner ((next program owner)^[n] x)) :
    Returns program owner x := by
  by_cases empty : x.waiting.toList = []
  · exact ⟨0, empty⟩
  · have round := next_of_not_endsAtOnce empty (h 0)
    have config : (next program owner x).world.config = x.world.config := config_next x
    obtain ⟨n, hn⟩ := returns_of_no_end (next program owner x) fun n => h (n + 1)
    exact ⟨n + 1, hn⟩
termination_by (x.world.config.mostTasks - x.scheduler.tasks.length, x.waiting.toList.length)
decreasing_by
  rw [config]
  -- A suspended task takes a free place for good; a dropped frame only shortens the queue.
  rcases round with ⟨same, shorter⟩ | ⟨free, more⟩
  · rw [same]
    exact Prod.Lex.right _ shorter
  · exact Prod.Lex.left _ _ (by omega)

/-- The loop returns just if it ends only finitely many tasks within their first drive. -/
theorem returns_iff (x : Starting) :
    Returns program owner x ↔
      ∃ n, ∀ m, n ≤ m → ¬ EndsAtOnce program owner ((next program owner)^[m] x) := by
  constructor
  · rintro ⟨n, hn⟩
    refine ⟨n, fun m le => ?_⟩
    obtain ⟨k, rfl⟩ := Nat.exists_eq_add_of_le' le
    rw [Function.iterate_add_apply, iterate_of_empty hn]
    rintro ⟨frame, waiting, hp, -, -⟩
    simp [Queue.toList_of_pop? hp] at hn
  · rintro ⟨n, hn⟩
    obtain ⟨k, hk⟩ := returns_of_no_end ((next program owner)^[n] x) fun k => by
      rw [← Function.iterate_add_apply]
      exact hn (k + n) (Nat.le_add_left n k)
    rw [← Function.iterate_add_apply] at hk
    exact ⟨k + n, hk⟩

end Starting
end BlockStage.Scheduler
