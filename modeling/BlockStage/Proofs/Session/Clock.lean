import BlockStage.Proofs.Log.Passing
import BlockStage.Proofs.Run.Quiet
import BlockStage.Proofs.Scalar.Quarters

/-! The clock of a run. It reads the sum of the times that the frames counted for, so it goes on as
long as every frame has a length that is a number; and then whatever is waited for comes due. -/

namespace BlockStage

open Scalar

namespace World

def SameTime (w w' : World) : Prop := w'.now = w.now

/-- Nothing waits any longer that was to wait until the time: no task that sleeps, no condition that
is to be looked at again and no timer. -/
structure Due (w : World) (time : Float) : Prop where
  task : ∀ t : Task, t.wake = .time time → (t.wakes w).1 = true
  poll : ∀ (t : Task) (condition : Condition), t.wake = .poll condition time →
    (t.wakes w).1 = (condition.holds t.owner w).1
  timer : ∀ t : Timer, t.nextFire = time → t.isDue w.now = true

theorem due_of_le {w : World} {time : Float} (le : time ≤ w.now + Task.clockTolerance) :
    w.Due time where
  task t sleeps := by
    rw [Task.wakes, sleeps]
    exact decide_eq_true le
  poll t condition polls := by
    rw [Task.wakes, polls]
    simp only [if_neg fun early => not_le_of_lt early le]
    split <;> simp_all only
  timer t next := by
    rw [Timer.isDue, next, decide_eq_false fun early => not_le_of_lt early le]
    rfl

/-! ### The countdown -/

theorem countdown_advanceCountdown (w : World) (dt : Float) :
    (w.advanceCountdown dt).countdown =
      w.countdown.bind fun left => if left - dt ≤ 0 then none else some (left - dt) := by
  cases counts : w.countdown with
  | none =>
    rw [advanceCountdown, counts]
    exact counts
  | some left =>
    rw [advanceCountdown, counts]
    dsimp only [Option.bind_some]
    split <;> split <;> rfl

def countDown (w : World) (frames : List Float32) : World :=
  frames.foldl (fun w dt => w.advanceCountdown (Session.frameTime dt)) w

end World

theorem keptInPlay_time : KeptInPlay World.SameTime where
  refl _ := rfl
  trans first second := second.trans first
  execute i owner program w := (i.input_now_execute owner program w).2
  effects _ _ := rfl
  aside _ _ _ _ _ := rfl
  input _ _ := rfl

namespace Session

/-! ### The time of a frame -/

variable {dt : Float32}

theorem frameTime_between (number : dt.isNaN = false) :
    0 ≤ frameTime dt ∧ frameTime dt ≤ mostFrameTime := by
  have number : (widen dt).isNaN = false := (isNaN_widen dt).trans number
  unfold frameTime clamp
  split
  · exact ⟨by decide, by decide⟩
  · rename_i positive
    split
    · exact ⟨by decide, by decide⟩
    · rename_i short
      exact ⟨le_of_not_lt rfl number positive, le_of_not_lt number rfl short⟩

theorem isNaN_frameTime (nan : dt.isNaN = true) : (frameTime dt).isNaN = true := by
  have nan : (widen dt).isNaN = true := (isNaN_widen dt).trans nan
  have below : ¬ widen dt < 0 := fun less =>
    Bool.false_ne_true ((isNaN_of_lt less).1.symm.trans nan)
  have above : ¬ mostFrameTime < widen dt := fun less =>
    Bool.false_ne_true ((isNaN_of_lt less).2.symm.trans nan)
  rw [frameTime, clamp, if_neg below, if_neg above]
  exact nan

/-! ### The clock -/

def Action.timed (now : Float) : Action → Float
  | .tick dt => now + frameTime dt
  | _ => now

theorem Does.now {s s' : Session} {a : Action} {log : Log} (did : s.Does a log s') :
    s'.world.now = a.timed s.world.now := by
  cases did with
  | frame dt => exact keptInPlay_time.tickToStop_later s dt
  | dispatches event target => exact keptInPlay_time.toKeptInWork.dispatch s event target
  | removes id => exact keptInPlay_time.execute ⟨.destroy, [], .command, .destroy, [], []⟩ id {} _
  | _ => rfl

theorem now_afterAll {s : Session} {actions : List Action} (lasts : s.OneRun actions) :
    (s.afterAll actions).world.now = actions.foldl Action.timed s.world.now := by
  induction actions generalizing s with
  | nil => rfl
  | cons a rest ih =>
    obtain ⟨running, other, later⟩ := lasts
    have first := (does_after running other).now
    rw [afterAll, List.foldl_cons]
    split
    · rename_i still
      rw [after_of_running still] at first
      rw [← first]
      exact ih later
    · rename_i ended
      cases rest with
      | nil => exact first
      | cons b rest => exact absurd later.1 ended

theorem now_start (s : Session) (settings : Settings) : (s.start settings).world.now = 0 := by
  have started := keptInPlay_time.toKeptInWork.start s settings
  have opened : (s.opened settings).world.now = 0 := by
    simp only [opened, World.showAllVars_eq]
    rfl
  exact started.trans opened

def Action.Timely : Action → Prop
  | .tick dt => dt.isNaN = false
  | _ => True

def isLong (dt : Float32) : Bool := decide (frameTime dt = mostFrameTime)

def Action.isLong : Action → Bool
  | .tick dt => Session.isLong dt
  | _ => false

variable {now : Float} {a : Action}

theorem between_timed (h : 0 ≤ now) (timely : a.Timely) :
    now ≤ a.timed now ∧ a.timed now ≤ now + mostFrameTime := by
  have least : 0 ≤ mostFrameTime := by decide
  cases a with
  | tick dt =>
    obtain ⟨positive, most⟩ := frameTime_between timely
    exact ⟨le_add h positive, add_le_add_left h positive least most⟩
  | _ => exact ⟨le_rfl_of_nonneg h, le_add h least⟩

theorem nonneg_timed (h : 0 ≤ now) (timely : a.Timely) : 0 ≤ a.timed now := by
  cases a with
  | tick dt => exact add_nonneg h (frameTime_between timely).1
  | _ => exact h

theorem nonneg_clock (h : 0 ≤ now) {actions : List Action} (timely : ∀ a ∈ actions, a.Timely) :
    0 ≤ actions.foldl Action.timed now := by
  induction actions generalizing now with
  | nil => exact h
  | cons a rest ih =>
    rw [List.forall_mem_cons] at timely
    exact ih (nonneg_timed h timely.1) timely.2

theorem isNaN_clock (nan : now.isNaN = true) (actions : List Action) :
    (actions.foldl Action.timed now).isNaN = true := by
  induction actions generalizing now with
  | nil => exact nan
  | cons a rest ih =>
    refine ih ?_
    cases a with
    | tick dt => exact isNaN_add_left nan _
    | _ => exact nan

theorem isNaN_clock_of_untimely {actions : List Action} (untimely : ¬ ∀ a ∈ actions, a.Timely)
    (now : Float) : (actions.foldl Action.timed now).isNaN = true := by
  induction actions generalizing now with
  | nil => exact absurd nofun untimely
  | cons a rest ih =>
    by_cases first : a.Timely
    · exact ih (fun timely => untimely (List.forall_mem_cons.2 ⟨first, timely⟩)) _
    · cases a with
      | tick dt =>
        have nan : dt.isNaN = true := Bool.eq_true_of_not_eq_false first
        exact isNaN_clock (isNaN_add_right now (isNaN_frameTime nan)) rest
      | _ => exact absurd trivial first

theorem atLeast_timed {n : Nat} (h : AtLeast now (min n mostQuarters)) (timely : a.Timely) :
    AtLeast (a.timed now) (min (n + if a.isLong then 1 else 0) mostQuarters) := by
  have goes_on : AtLeast (a.timed now) (min n mostQuarters) :=
    h.mono (between_timed h.nonneg timely).1 (nonneg_timed h.nonneg timely)
  by_cases long : a.isLong = true
  · rw [if_pos long]
    by_cases room : n < mostQuarters
    · rw [Nat.min_eq_left room.le] at h
      rw [Nat.min_eq_left room]
      cases a with
      | tick dt =>
        have quarter : frameTime dt = mostFrameTime := of_decide_eq_true long
        rw [Action.timed, quarter]
        exact h.add_quarter (Nat.add_lt_of_lt_sub room)
      | _ => contradiction
    · rw [Nat.min_eq_right (by omega)] at goes_on ⊢
      exact goes_on
  · rw [if_neg long]
    exact goes_on

theorem atLeast_clock {n : Nat} (h : AtLeast now (min n mostQuarters)) {actions : List Action}
    (timely : ∀ a ∈ actions, a.Timely) :
    AtLeast (actions.foldl Action.timed now)
      (min (n + actions.countP Action.isLong) mostQuarters) := by
  induction actions generalizing now n with
  | nil => exact h
  | cons a rest ih =>
    rw [List.forall_mem_cons] at timely
    have rests := ih (atLeast_timed h timely.1) timely.2
    rw [List.countP_cons, Nat.add_comm (rest.countP _), ← Nat.add_assoc]
    exact rests

theorem due_of_long {s : Session} {actions : List Action} (lasts : s.OneRun actions)
    (positive : 0 ≤ s.world.now) (timely : ∀ a ∈ actions, a.Timely)
    (long : mostQuarters ≤ actions.countP Action.isLong) {time : Float}
    (early : time < 2251799813685248) : (s.afterAll actions).world.Due time := by
  have most := atLeast_clock (n := 0) (atLeast_zero positive) timely
  rw [Nat.zero_add, Nat.min_eq_right long, ← now_afterAll lasts] at most
  have tolerance : 0 ≤ Task.clockTolerance := by decide
  have more := most.mono (le_add most.nonneg tolerance) (add_nonneg most.nonneg tolerance)
  exact World.due_of_le ((atMost_of_lt early).le more)

/-! ### The countdown -/

def LastsAtMost (countdown : Option Float) (n : Nat) : Prop :=
  ∀ left, countdown = some left → ∃ m, n = m + 1 ∧ AtMost left m

variable {w : World} {n : Nat}

theorem lastsAtMost_advanceCountdown (h : LastsAtMost w.countdown n) (few : n ≤ 2 ^ 53)
    (number : dt.isNaN = false) :
    LastsAtMost (w.advanceCountdown (frameTime dt)).countdown (n - if isLong dt then 1 else 0) := by
  intro rest counts
  rw [World.countdown_advanceCountdown] at counts
  obtain ⟨left, at_left, rests⟩ := Option.bind_eq_some_iff.1 counts
  obtain ⟨m, rfl, most⟩ := h left at_left
  split at rests
  · contradiction
  · rename_i some
    obtain rfl := Option.some.inj rests
    obtain ⟨positive, small⟩ := frameTime_between number
    have less := most.sub (by omega) positive small
    by_cases long : isLong dt = true
    · have quarter : frameTime dt = mostFrameTime := of_decide_eq_true long
      rw [if_pos long]
      cases m with
      | zero => exact absurd less.le_zero some
      | succ m =>
        rw [quarter]
        exact ⟨m, rfl, most.sub_quarter (by omega)⟩
    · rw [if_neg long]
      exact ⟨m, rfl, less⟩

theorem countDown_over (h : LastsAtMost w.countdown n) (few : n ≤ 2 ^ 53) {frames : List Float32}
    (numbers : ∀ dt ∈ frames, dt.isNaN = false) (long : n ≤ frames.countP isLong) :
    (w.countDown frames).countdown = none := by
  induction frames generalizing w n with
  | nil =>
    cases counts : w.countdown with
    | none => exact counts
    | some left =>
      obtain ⟨m, rfl, -⟩ := h left counts
      exact absurd long (Nat.not_succ_le_zero m)
  | cons dt rest ih =>
    rw [List.forall_mem_cons] at numbers
    rw [List.countP_cons] at long
    exact ih (lastsAtMost_advanceCountdown h few numbers.1) (by omega) numbers.2 (by omega)

theorem advanceCountdown_of_isNaN {left time : Float} (counts : w.countdown = some left)
    (nan : (left - time).isNaN = true) :
    (w.advanceCountdown time).countdown = some (left - time) := by
  rw [World.countdown_advanceCountdown, counts, Option.bind_some,
    if_neg (not_le_of_isNaN_left nan 0)]

theorem countDown_of_isNaN {left : Float} (counts : w.countdown = some left)
    (nan : left.isNaN = true) (frames : List Float32) :
    (w.countDown frames).countdown.isSome = true := by
  induction frames generalizing w left with
  | nil => exact Option.isSome_iff_exists.2 ⟨left, counts⟩
  | cons dt rest ih =>
    have nan := isNaN_sub_left nan (frameTime dt)
    exact ih (advanceCountdown_of_isNaN counts nan) nan

theorem countDown_stuck {left : Float} (counts : w.countdown = some left) (nan : dt.isNaN = true)
    (frames : List Float32) : (w.countDown (dt :: frames)).countdown.isSome = true :=
  have nan := isNaN_sub_right left (isNaN_frameTime nan)
  countDown_of_isNaN (advanceCountdown_of_isNaN counts nan) nan frames

/-! ### All of it -/

/-- As long as every frame has a length that is a number, and only then, the clock of a run goes on,
by a quarter of a second at most in a frame; and then, whatever lengths there were, any time that
doubles can count up to comes after enough long frames. After a frame whose length is not a number
no sleeping task wakes up in this run. -/
theorem clock_goes_on_iff (s : Session) (settings : Settings) (actions : List Action)
    (one_run : (s.start settings).OneRun actions) :
    let run := s.start settings
    ((∀ earlier a later, actions = earlier ++ a :: later →
        let now := (run.afterAll earlier).world.now
        let next := (run.afterAll (earlier ++ [a])).world.now
        next.isNaN = false ∧ now ≤ next ∧ next ≤ now + mostFrameTime) ↔
      ∀ a ∈ actions, a.Timely) ∧
    ((∀ a ∈ actions, a.Timely) → ∀ time < 2251799813685248, ∃ longs, ∀ later,
      run.OneRun (actions ++ later) → (∀ a ∈ later, a.Timely) →
        longs ≤ later.countP Action.isLong → (run.afterAll (actions ++ later)).world.Due time) ∧
    ((¬ ∀ a ∈ actions, a.Timely) → ∀ (t : Task) (time : Float), t.wake = .time time →
      (t.wakes (run.afterAll actions).world).1 = false) ∧
    ∀ (w : World) (left : Float), w.countdown = some left →
      (left < 2251799813685248 → ∃ longs, ∀ frames : List Float32,
        (∀ dt ∈ frames, dt.isNaN = false) → longs ≤ frames.countP isLong →
          (w.countDown frames).countdown = none) ∧
      ∀ dt : Float32, dt.isNaN = true → ∀ frames,
        (w.countDown (dt :: frames)).countdown.isSome = true := by
  intro run
  have clock {actions : List Action} (lasts : run.OneRun actions) :
      (run.afterAll actions).world.now = actions.foldl Action.timed 0 := by
    rw [now_afterAll lasts, now_start]
  have zero : (0 : Float) ≤ 0 := by decide
  refine ⟨⟨fun sound a ha => ?_, fun timely earlier a later split => ?_⟩,
    fun timely time early => ?_, fun untimely t time sleeps => ?_, fun w left counts => ?_⟩
  · by_contra untimely
    obtain ⟨earlier, later, rfl⟩ := List.append_of_mem ha
    have lasts : run.OneRun (earlier ++ [a]) := one_run.take_snoc
    have number := (sound earlier a later rfl).1
    rw [clock lasts, isNaN_clock_of_untimely fun timely => untimely (timely a (by simp))] at number
    contradiction
  · subst split
    have lasts : run.OneRun (earlier ++ [a]) := one_run.take_snoc
    have positive : 0 ≤ earlier.foldl Action.timed 0 :=
      nonneg_clock zero fun b hb => timely b (List.mem_append_left _ hb)
    have timely : a.Timely := timely a (by simp)
    rw [clock lasts, clock lasts.take, List.foldl_append]
    exact ⟨isNaN_of_nonneg (nonneg_timed positive timely), between_timed positive timely⟩
  · refine ⟨mostQuarters, fun later lasts timely' long => due_of_long lasts ?_ ?_ ?_ early⟩
    · rw [now_start]
      exact zero
    · exact List.forall_mem_append.2 ⟨timely, timely'⟩
    · rw [List.countP_append]
      omega
  · have lost := isNaN_add_left (clock one_run ▸ isNaN_clock_of_untimely untimely 0)
      Task.clockTolerance
    rw [Task.wakes, sleeps]
    exact decide_eq_false (not_le_of_isNaN lost time)
  · refine ⟨fun early => ⟨mostQuarters + 1, fun frames numbers long => ?_⟩,
      fun dt nan frames => countDown_stuck counts nan frames⟩
    refine countDown_over (n := mostQuarters + 1) (fun rest at_rest => ?_) (by decide) numbers long
    obtain rfl := Option.some.inj (counts.symm.trans at_rest)
    exact ⟨_, rfl, atMost_of_lt early⟩

section Example

def emptyRun : Session := (ofConfig {}).start {}

/-- A frame backwards and one of 1000 seconds do not stop the clock. -/
theorem clock_goes_on_after_odd_frames :
    let actions := [.tick (-3), .tick 1000]
    emptyRun.OneRun actions ∧ (∀ a ∈ actions, a.Timely) ∧
    (emptyRun.afterAll [.tick (-3)]).world.now ≤ (emptyRun.afterAll actions).world.now ∧
    ∃ longs, ∀ later, emptyRun.OneRun (actions ++ later) → (∀ a ∈ later, a.Timely) →
      longs ≤ later.countP Action.isLong → (emptyRun.afterAll (actions ++ later)).world.Due 60 := by
  intro actions
  have running : emptyRun.isRunning = true := rfl
  have still : (emptyRun.act (.tick (-3))).isRunning = true :=
    isRunning_tick_of_idle running rfl (-3)
  have one_run : emptyRun.OneRun actions := ⟨running, nofun, still, nofun, trivial⟩
  have timely : ∀ a ∈ actions, a.Timely := by
    have back : (-3 : Float32).isNaN = false := by decide
    have long : (1000 : Float32).isNaN = false := by decide
    exact List.forall_mem_cons.2 ⟨back, List.forall_mem_cons.2 ⟨long, nofun⟩⟩
  have theory := clock_goes_on_iff (ofConfig {}) {} actions one_run
  rw [show (ofConfig {}).start {} = emptyRun from rfl] at theory
  obtain ⟨sound_iff, due, -⟩ := theory
  have onward : (emptyRun.afterAll [.tick (-3)]).world.now ≤
      (emptyRun.afterAll ([.tick (-3)] ++ [.tick 1000])).world.now :=
    (sound_iff.2 timely [.tick (-3)] (.tick 1000) [] rfl).2.1
  rw [show [.tick (-3)] ++ [.tick 1000] = actions from rfl] at onward
  exact ⟨one_run, timely, onward, due timely 60 (by decide)⟩

/-- After a frame whose length is not a number the clock shows none, and the run goes on. -/
theorem clock_lost_to_nan :
    let next := emptyRun.act (.tick (.ofBits 0x7fc00000))
    emptyRun.isRunning = true ∧ next.isRunning = true ∧ next.world.now.isNaN = true := by
  intro next
  have running : emptyRun.isRunning = true := rfl
  have still : next.isRunning = true := isRunning_tick_of_idle running rfl _
  have same : emptyRun.after (.tick (.ofBits 0x7fc00000)) = next := after_of_running still
  have other (settings : Settings) : Action.tick (.ofBits 0x7fc00000) ≠ .start settings := nofun
  have shown := (does_after running other).now
  refine ⟨running, still, ?_⟩
  rw [← same, shown]
  exact isNaN_add_right _ (isNaN_frameTime (by decide))

end Example

end Session

end BlockStage
