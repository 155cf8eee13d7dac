import BlockStage.Proofs.Run.Steps
import BlockStage.Proofs.Run.Turns

/-! Relations between worlds that all work of tasks keeps. It is enough that single instructions
keep them: conditions and counters of loops do nothing that an instruction could not do. -/

namespace BlockStage

/-- Whatever an instruction does, the worlds before and after are related; and so are those before
and after several of them. -/
structure Kept (R : World → World → Prop) : Prop where
  refl : ∀ w, R w w
  trans : ∀ {w w' w''}, R w w' → R w' w'' → R w w''
  execute : ∀ (i : Instruction) (owner : ObjectId) (program : Program) (w : World),
    R w (i.execute owner program w).2

namespace Kept

variable {R : World → World → Prop} (kept : Kept R) (program : Program) (owner : ObjectId)

include kept

/-! ### Drives -/

theorem setVar (w : World) (name : String) (value : Float) : R w (w.setVar name value) :=
  kept.execute ⟨.setVar, [], .command, .setVar name value, [], []⟩ ⟨0⟩ {} w

theorem holds (condition : Condition) (w : World) : R w (condition.holds owner w).2 := by
  have checked := kept.execute ⟨.ifThen, [], .container, .ifThen condition, [], []⟩ owner {} w
  simp only [Instruction.execute] at checked
  split at checked <;> simp_all only

theorem advance (frame : Frame) (w : World) : R w (frame.advance owner w).2 := by
  cases frame with
  | sequence rest => cases rest <;> exact kept.refl w
  | repeatTimes body left => cases left <;> exact kept.refl w
  | forever body resting => cases resting <;> exact kept.refl w
  | whileHolds condition body resting =>
    cases resting with
    | true => exact kept.refl w
    | false =>
      have held := kept.holds owner condition w
      simp only [Frame.advance]
      split <;> simp_all only
  | forEach counter next last body =>
    cases next with
    | none => exact kept.refl w
    | some value => exact kept.setVar w counter _

theorem step (frames : List Frame) (w : World) :
    R w (Task.step program owner frames w).2 := by
  rcases h : Task.step program owner frames w with ⟨move, w'⟩
  have advanced {top : Frame} {ask : Frame.Advance}
      (ha : top.advance owner w = (ask, w')) : R w w' := by
    have related := kept.advance owner top w
    rwa [ha] at related
  have executed {i : Instruction} {flow : Flow}
      (he : i.execute owner program w = (flow, w')) : R w w' := by
    have related := kept.execute i owner program w
    rwa [he] at related
  cases Task.steps_of_step h with
  | empty => exact kept.refl w
  | givenUp => exact kept.refl w
  | pop _ advance => exact advanced advance
  | push _ advance => exact advanced advance
  | rest _ advance => exact advanced advance
  | next _ execute => exact executed execute
  | enter _ execute => exact executed execute
  | spawn _ execute => exact executed execute
  | suspend _ execute => exact executed execute
  | stop _ execute => exact executed execute

theorem drive (frames : List Frame) (q : Queue Frame) (w : World) :
    R w (Task.drive program owner frames q w).world := by
  fun_induction Task.drive program owner frames q w with
  | case1 frames q w frames' w' move ih =>
    have moved := kept.step program owner frames w
    rw [move] at moved
    exact kept.trans moved ih
  | case2 frames q w frames' frame w' move ih =>
    have moved := kept.step program owner frames w
    rw [move] at moved
    exact kept.trans moved ih
  | case3 frames q w frames' wake w' move =>
    have moved := kept.step program owner frames w
    rwa [move] at moved
  | case4 frames q w w' move =>
    have moved := kept.step program owner frames w
    rwa [move] at moved

theorem wakes (t : Task) (w : World) : R w (t.wakes w).2.2 := by
  unfold Task.wakes
  split
  · exact kept.refl w
  · exact kept.refl w
  · rename_i condition _ _
    have held := kept.holds t.owner condition w
    split
    · exact kept.refl w
    · split <;> simp_all only

/-! ### Starts, launches and ticks -/

theorem startNext (frame : Frame) (waiting : Queue Frame) (s : Scheduler) (w : World) :
    R w (Scheduler.startNext program owner frame waiting s w).2.2 := by
  unfold Scheduler.startNext
  split
  · exact kept.refl w
  · exact kept.drive program owner [frame] waiting w

theorem startAll (supply : Nat) (waiting : Queue Frame) (s : Scheduler) (w : World) :
    R w (Scheduler.startAll program owner supply waiting s w).2 := by
  induction supply generalizing waiting s w with
  | zero => exact kept.refl w
  | succ supply ih =>
    rw [Scheduler.startAll]
    split
    · exact kept.refl w
    · exact kept.trans (kept.startNext program owner _ _ s w) (ih _ _ _)

theorem start (frame : Frame) (s : Scheduler) (w : World) :
    R w (Scheduler.start program owner frame s w).2 :=
  kept.startAll program owner Scheduler.mostStarts _ s w

theorem startEach (starts : List (ObjectId × Frame)) (s : Scheduler) (w : World) :
    R w (Scheduler.startEach program starts s w).2 := by
  induction starts generalizing s w with
  | nil => exact kept.refl w
  | cons p rest ih => exact kept.trans (kept.start program p.1 p.2 s w) (ih _ _)

theorem launch (body : List Instruction) (s : Scheduler) (w : World) :
    R w (Scheduler.launch program owner body s w).2 := by
  unfold Scheduler.launch
  split
  · exact kept.start program owner _ s w
  · exact kept.refl w

theorem visit (t : Task) (w : World) : R w (Scheduler.visit program t w).2.2 := by
  unfold Scheduler.visit
  split
  · have woken := kept.wakes t w
    split
    · simp_all only
    · rename_i w' h
      rw [h] at woken
      exact kept.trans woken (kept.drive program t.owner t.frames {} w')
  · exact kept.refl w

theorem visitAll (tasks : List Task) (w : World) :
    R w (Scheduler.visitAll program tasks w).2.2 := by
  induction tasks generalizing w with
  | nil => exact kept.refl w
  | cons t rest ih => exact kept.trans (kept.visit program t w) (ih _)

theorem tick (s : Scheduler) (w : World) : R w (Scheduler.tick program s w).2 := by
  by_cases running : w.running = true
  · rw [Scheduler.tick_eq program s running]
    exact kept.trans (kept.visitAll program s.tasks w) (kept.startEach program _ _ _)
  · rw [Scheduler.tick, if_neg running]
    exact kept.refl w

/-! ### Dispatches and timers -/

variable (d : Dispatcher)

theorem launchAll (entries : List Program.Entry) (s : Scheduler) (w : World) :
    R w (d.launchAll entries s w).2.2 := by
  induction entries generalizing s w with
  | nil => exact kept.refl w
  | cons entry rest ih =>
    rw [Dispatcher.launchAll]
    split
    · exact kept.trans (kept.launch d.program entry.owner _ s w) (ih _ _)
    · exact ih _ _

theorem dispatch (event : Event) (target : Option ObjectId) (s : Scheduler) (w : World) :
    R w (d.dispatch event target s w).2.2 := by
  unfold Dispatcher.dispatch
  split
  · exact kept.launchAll d _ s w
  · exact kept.refl w

theorem fireAll (timers : List Timer) (s : Scheduler) (w : World) :
    R w (d.fireAll timers s w).2.2 := by
  induction timers generalizing s w with
  | nil => exact kept.refl w
  | cons t rest ih =>
    rw [Dispatcher.fireAll]
    split
    · exact kept.trans (kept.launch d.program t.entry.owner _ s w) (ih _ _)
    · exact ih _ _

theorem fireTimers (s : Scheduler) (w : World) : R w (d.fireTimers s w).2.2 := by
  unfold Dispatcher.fireTimers
  split
  · exact kept.fireAll d d.timers s w
  · exact kept.refl w

end Kept

theorem kept_evolves : Kept Evolves where
  refl := .refl
  trans := .trans
  execute := Instruction.evolves_execute

end BlockStage
