import BlockStage.Proofs.Run.Spawning
import BlockStage.Proofs.Structured.Basic

/-! The stack machine does what the reference semantics says, as long as its stack does not
outgrow the limit. Each piece of code is followed under an arbitrary rest of the stack. -/

namespace BlockStage.Structured

open BlockStage.Task

variable {program : Program} {owner : ObjectId} {top : Frame} {frames frames' below : List Frame}
  {spawned : List Frame} {w w' : World}

/-- No stack that `frames` goes on to is higher than the machine takes. -/
def Fits (program : Program) (owner : ObjectId) (frames : List Frame) (w : World) : Prop :=
  ∀ spawned frames' w', Passes program owner frames w spawned frames' w' →
    frames'.length ≤ mostFrames

theorem Fits.after (fits : Fits program owner frames w)
    (path : Passes program owner frames w spawned frames' w') : Fits program owner frames' w' :=
  fun _ _ _ later => fits _ _ _ (path.trans later)

theorem Fits.step (fits : Fits program owner (top :: below) w) (running : w.running = true) :
    Task.step program owner (top :: below) w = stepTop program owner top below w := by
  have height := fits [] (top :: below) w (.refl _ _)
  rw [List.length_cons] at height
  rw [Task.step, if_pos]
  simp only [running, Bool.true_and, decide_eq_true_eq]
  omega

theorem length_of_go (h : Task.step program owner frames w = (.go frames', w')) :
    frames'.length ≤ frames.length + 1 := by
  cases steps_of_step h with
  | pop => simp only [List.length_cons]; omega
  | _ => simp

theorem fits_of_work (h : frames.length + work owner program frames ≤ mostFrames) :
    Fits program owner frames w := by
  intro spawned frames' w' path
  induction path with
  | refl => omega
  | @go frames _ _ _ w _ _ move _ ih =>
    have less := work_step (by rw [move]; rfl)
    have higher := length_of_go move
    exact ih (by omega)
  | spawn move _ ih =>
    have less := work_step (by rw [move]; rfl)
    obtain ⟨i, rest, below, rfl, rfl, -⟩ := step_spawn move
    simp only [List.length_cons] at h ih
    exact ih (by omega)

/-- The stack `frames` goes through an outcome: down to `below` with completed code, and to its
finish with abandoned code. -/
inductive Carries (program : Program) (owner : ObjectId) (frames below : List Frame) (w : World) :
    Ending × List Frame × World → Prop
  | completed {spawned : List Frame} {w' : World}
      (path : Passes program owner frames w spawned below w') :
      Carries program owner frames below w (.completed, spawned, w')
  | abandoned {spawned last : List Frame} {w₁ w' : World}
      (path : Passes program owner frames w spawned last w₁)
      (finish : Task.step program owner last w₁ = (.finish, w')) :
      Carries program owner frames below w (.abandoned, spawned, w')

theorem Carries.prepend {ending : Ending} {later : List Frame} {w'' : World}
    (rest : Carries program owner frames' below w' (ending, later, w''))
    (path : Passes program owner frames w spawned frames' w') :
    Carries program owner frames below w (ending, spawned ++ later, w'') := by
  cases rest with
  | completed path' => exact .completed (path.trans path')
  | abandoned path' finish => exact .abandoned (path.trans path') finish

theorem Carries.after_go {o : Ending × List Frame × World}
    (rest : Carries program owner frames' below w' o)
    (move : Task.step program owner frames w = (.go frames', w')) :
    Carries program owner frames below w o := by
  obtain ⟨ending, spawned, w''⟩ := o
  exact rest.prepend (.single_go move)

def Plays (program : Program) (owner : ObjectId) (p : Piece) (frames below : List Frame) : Prop :=
  ∀ w o, w.running = true → Fits program owner frames w → p w = some o →
    Carries program owner frames below w o

theorem plays_andThen {p q : Piece} (first : Plays program owner p frames frames')
    (second : Plays program owner q frames' below) :
    Plays program owner (andThen p q) frames below := by
  rintro w ⟨ending, spawned, w'⟩ running fits h
  obtain ⟨before, w₁, later, hp, hq, rfl⟩ | ⟨rfl, hp⟩ := andThen_eq_some h
  · obtain @⟨_, _, path⟩ := first w _ running fits hp
    have running₁ : w₁.running = true := by rw [path.evolves.running, running]
    exact (second w₁ _ running₁ (fits.after path) hq).prepend path
  · obtain _ | ⟨path, finish⟩ := first w _ running fits hp
    exact .abandoned path finish

theorem plays_done (finished : ∀ w, top.advance owner w = (.pop, w)) :
    Plays program owner done (top :: below) below := by
  intro w o running fits h
  obtain rfl := Option.some.inj h
  refine .completed (.single_go ?_)
  rw [fits.step running, stepTop, finished]

theorem plays_push (p : Piece) (enter : World → World) {body : List Instruction} {self : Frame}
    (advance : ∀ w, top.advance owner w = (.push body self, enter w))
    (entered : ∀ w, (enter w).running = w.running)
    (rest : Plays program owner p (.sequence body :: self :: below) below) :
    Plays program owner (fun w => p (enter w)) (top :: below) below := by
  intro w o running fits h
  have move : Task.step program owner (top :: below) w =
      (.go (.sequence body :: self :: below), enter w) := by
    rw [fits.step running, stepTop, advance]
  have running' : (enter w).running = true := by rw [entered, running]
  exact (rest _ o running' (fits.after (.single_go move)) h).after_go move

/-! ### Loops -/

theorem plays_times {p : Piece} {body : List Instruction}
    (pass : ∀ below, Plays program owner p (.sequence body :: below) below) (count : Nat) :
    Plays program owner (inTurn (List.replicate count p)) (.repeatTimes body count :: below)
      below := by
  induction count with
  | zero => exact plays_done fun w => rfl
  | succ count ih =>
    exact plays_push _ id (fun w => rfl) (fun w => rfl) (plays_andThen (pass _) ih)

def remaining (next : Option Int64) (last : Int64) : List Int64 :=
  match next with
  | none => []
  | some value => span value last

theorem span_up {first last : Int64} (h : first.toInt ≤ last.toInt) :
    span first last = (List.range ((last.toInt - first.toInt).natAbs + 1)).map fun k : Nat =>
      .ofInt (first.toInt + k) := by
  simp only [span, Int64.le_iff_toInt_le, h, if_true]

theorem span_down {first last : Int64} (h : last.toInt ≤ first.toInt) :
    span first last = (List.range ((last.toInt - first.toInt).natAbs + 1)).map fun k : Nat =>
      .ofInt (first.toInt - k) := by
  refine List.map_congr_left fun k hk => congrArg Int64.ofInt ?_
  rw [List.mem_range] at hk
  simp only [Int64.le_iff_toInt_le]
  split <;> omega

theorem span_eq (first last : Int64) :
    span first last = first :: remaining (Frame.counterAfter first last) last := by
  obtain ⟨less, step, eq⟩ | ⟨less, step, eq⟩ | ⟨rfl, eq⟩ := Frame.counterAfter_cases first last
  · have count : (last.toInt - first.toInt).natAbs =
        (last.toInt - (first + 1).toInt).natAbs + 1 := by omega
    rw [eq, remaining, span_up (by omega), span_up (by omega), count, List.range_succ_eq_map,
      List.map_cons, List.map_map]
    refine List.cons_eq_cons.2 ⟨?_, List.map_congr_left fun k _ => congrArg Int64.ofInt ?_⟩
    · rw [Int.natCast_zero, Int.add_zero, Int64.ofInt_toInt]
    · omega
  · have count : (last.toInt - first.toInt).natAbs =
        (last.toInt - (first - 1).toInt).natAbs + 1 := by omega
    rw [eq, remaining, span_down (by omega), span_down (by omega), count, List.range_succ_eq_map,
      List.map_cons, List.map_map]
    refine List.cons_eq_cons.2 ⟨?_, List.map_congr_left fun k _ => congrArg Int64.ofInt ?_⟩
    · rw [Int.natCast_zero, Int.sub_zero, Int64.ofInt_toInt]
    · omega
  · rw [eq, remaining, span_up (Int.le_refl _), Int.sub_self]
    simp

theorem plays_counted {nested : List Instruction → Piece} {body : List Instruction}
    (pass : ∀ below, Plays program owner (nested body) (.sequence body :: below) below)
    (counter : String) (next : Option Int64) (last : Int64) :
    Plays program owner
      (inTurn ((remaining next last).map fun value w =>
        nested body (w.setVar counter (Scalar.ofWord value))))
      (.forEach counter next last body :: below) below := by
  cases next with
  | none => exact plays_done fun w => rfl
  | some value =>
    -- The counter is a machine word, so the passes that are left decrease and not the values.
    rw [remaining, span_eq]
    have rest := plays_counted pass counter (Frame.counterAfter value last) last
    exact plays_push _ (·.setVar counter (Scalar.ofWord value)) (fun w => rfl) (fun w => rfl)
      (plays_andThen (pass _) rest)
termination_by Frame.passes next last
decreasing_by
  rw [← Frame.passes_counterAfter value last]
  omega

/-! ### Instructions -/

section Instruction

variable {i : Instruction} {rest : List Instruction} {o : Ending × List Frame × World}

theorem Fits.step_instruction (fits : Fits program owner (.sequence (i :: rest) :: below) w)
    (running : w.running = true) {flow : Flow} (h : i.execute owner program w = (flow, w')) :
    Task.step program owner (.sequence (i :: rest) :: below) w =
      (.ofFlow (.sequence rest :: below) flow, w') := by
  rw [fits.step running]
  simp only [stepTop, Frame.advance, h]

theorem carries_next (fits : Fits program owner (.sequence (i :: rest) :: below) w)
    (running : w.running = true) (h : i.execute owner program w = (.next, w'))
    (outcome : done w' = some o) :
    Carries program owner (.sequence (i :: rest) :: below) (.sequence rest :: below) w o := by
  obtain rfl := Option.some.inj outcome
  exact .completed (.single_go (fits.step_instruction running h))

theorem carries_enter (fits : Fits program owner (.sequence (i :: rest) :: below) w)
    (running : w.running = true) {frame : Frame}
    (h : i.execute owner program w = (.enter frame, w')) {p : Piece}
    (inside : Plays program owner p (frame :: .sequence rest :: below) (.sequence rest :: below))
    (outcome : p w' = some o) :
    Carries program owner (.sequence (i :: rest) :: below) (.sequence rest :: below) w o := by
  have move := fits.step_instruction running h
  have running' : w'.running = true := by
    rw [← running, ← (i.evolves_execute owner program w).running, h]
  exact (inside w' o running' (fits.after (.single_go move)) outcome).after_go move

theorem carries_body (fits : Fits program owner (.sequence (i :: rest) :: below) w)
    (running : w.running = true) {body : List Instruction}
    (h : i.execute owner program w = (Instruction.enterBody body, w')) {p : Piece}
    (inside : ∀ below, Plays program owner p (.sequence body :: below) below)
    (nothing : body = [] → Extends p done) (outcome : p w' = some o) :
    Carries program owner (.sequence (i :: rest) :: below) (.sequence rest :: below) w o := by
  cases body with
  | nil => exact carries_next fits running h (nothing rfl w' o outcome)
  | cons j body => exact carries_enter fits running h (inside _) outcome

theorem plays_instruction {nested : List Instruction → Piece}
    (pass : ∀ body below, Plays program owner (nested body) (.sequence body :: below) below)
    (nothing : Extends (nested []) done) (i : Instruction) (rest : List Instruction)
    (below : List Frame) :
    Plays program owner (instruction program owner nested i) (.sequence (i :: rest) :: below)
      (.sequence rest :: below) := by
  intro w o running fits h
  obtain ⟨opcode, arguments, kind, command, children, elseChildren⟩ := i
  cases command with
  | wait seconds => simp [instruction] at h
  | whileHolds condition => simp [instruction] at h
  | waitUntil condition =>
    simp only [instruction] at h
    split at h
    · rename_i w' holds
      exact carries_next fits running (by simp only [Instruction.execute, holds]) h
    · contradiction
  | glide target seconds relative =>
    simp only [instruction] at h
    split at h
    · rename_i w' moved
      exact carries_next fits running moved h
    · contradiction
  | repeatTimes count =>
    simp only [instruction] at h
    split at h
    · rename_i empty
      exact carries_next fits running (by simp [Instruction.execute, empty]) h
    · rename_i nonempty
      rw [List.map_replicate] at h
      by_cases zero : count = 0
      · subst zero
        exact carries_next fits running (by simp [Instruction.execute]) h
      · have enters : Instruction.execute ⟨opcode, arguments, kind, .repeatTimes count, children,
            elseChildren⟩ owner program w = (.enter (.repeatTimes children count), w) := by
          simp [Instruction.execute, zero, nonempty]
        exact carries_enter fits running enters (plays_times (pass children) count) h
  | forEach counter first last =>
    exact carries_enter fits running rfl (plays_counted (pass children) counter (some first) last) h
  | ifThen condition =>
    simp only [instruction] at h
    split at h
    · rename_i w' holds
      exact carries_body fits running (by simp only [Instruction.execute, holds]) (pass children)
        (fun empty => empty ▸ nothing) h
    · rename_i w' holds
      exact carries_next fits running (by simp only [Instruction.execute, holds]) h
  | ifElse condition =>
    simp only [instruction] at h
    split at h
    · rename_i w' holds
      exact carries_body fits running (by simp only [Instruction.execute, holds]) (pass children)
        (fun empty => empty ▸ nothing) h
    · rename_i w' holds
      exact carries_body fits running (by simp only [Instruction.execute, holds])
        (pass elseChildren) (fun empty => empty ▸ nothing) h
  | call name =>
    simp only [instruction] at h
    split at h
    · rename_i definition found
      exact carries_enter fits running (by simp only [Instruction.execute, found])
        (pass definition.body _) h
    · rename_i missing
      exact carries_next fits running (by simp only [Instruction.execute, missing]) h
  | forever =>
    simp only [instruction] at h
    split at h
    · rename_i empty
      exact carries_next fits running (by simp [Instruction.execute, empty]) h
    · rename_i nonempty
      obtain rfl := Option.some.inj h
      have asks : Instruction.execute ⟨opcode, arguments, kind, .forever, children, elseChildren⟩
          owner program w = (.spawn (.forever children false), w) := by
        simp [Instruction.execute, nonempty]
      exact .completed (.spawn (fits.step_instruction running asks) (.refl _ _))
  | stop =>
    obtain rfl := Option.some.inj h
    exact .abandoned (.refl _ _) (fits.step_instruction running rfl)
  | destroy =>
    obtain rfl := Option.some.inj h
    exact .abandoned (.refl _ _) (fits.step_instruction running rfl)
  | _ => exact carries_next fits running rfl h

end Instruction

/-! ### Lists of instructions -/

theorem plays_list {p : Instruction → Piece}
    (single : ∀ i rest below, Plays program owner (p i) (.sequence (i :: rest) :: below)
      (.sequence rest :: below)) (body : List Instruction) (below : List Frame) :
    Plays program owner (inTurn (body.map p)) (.sequence body :: below) below := by
  induction body with
  | nil => exact plays_done fun w => rfl
  | cons i rest ih => exact plays_andThen (single i rest below) ih

theorem extends_eval_nil (levels : Nat) : Extends (eval program owner levels []) done := by
  cases levels with
  | zero => exact fun w o h => by simp [eval] at h
  | succ levels => exact fun w o h => h

theorem plays_eval (levels : Nat) (body : List Instruction) (below : List Frame) :
    Plays program owner (eval program owner levels body) (.sequence body :: below) below := by
  induction levels generalizing body below with
  | zero => exact fun w o _ _ h => by simp [eval] at h
  | succ levels ih =>
    exact plays_list (plays_instruction ih (extends_eval_nil levels)) body below

/-- A fresh task for a list of instructions does what the reference semantics says: it is over
without a suspension, in the same world, after spawning the same frames in the same order. How many
levels the semantics is given makes no difference, as long as they suffice. -/
theorem drive_eq_of_eval (program : Program) (owner : ObjectId) (body : List Instruction)
    (w : World) (levels : Nat) (ending : Ending) (spawned : List Frame) (w' : World)
    (running : w.running = true) (fits : Fits program owner [.sequence body] w)
    (h : eval program owner levels body w = some (ending, spawned, w')) (q : Queue Frame) :
    Task.drive program owner [.sequence body] q w = ⟨none, q.pushAll spawned, w'⟩ ∧
      ∀ more, levels ≤ more → eval program owner more body w = some (ending, spawned, w') := by
  refine ⟨?_, fun more le => eval_of_le le body w _ h⟩
  cases plays_eval levels body [] w _ running fits h with
  | completed path => rw [Task.drive_passes path, Task.drive_finish rfl]
  | abandoned path finish => rw [Task.drive_passes path, Task.drive_finish finish]

section Example

def announce (text : String) : Instruction := ⟨.broadcast, [], .command, .broadcast text, [], []⟩

def stopping : List Instruction := [
  ⟨.repeatTimes, [], .container, .repeatTimes 2, [announce "pass"], []⟩,
  ⟨.forever, [], .container, .forever, [announce "tick"], []⟩,
  ⟨.stop, [], .command, .stop, [], []⟩,
  announce "never"]

def runningWorld : World := { World.ofConfig {} with running := true }

theorem drive_stopping :
    runningWorld.running = true ∧ Fits {} ⟨1⟩ [.sequence stopping] runningWorld ∧
    eval {} ⟨1⟩ 2 stopping runningWorld = some (.abandoned, [.forever [announce "tick"] false],
      (runningWorld.raise (.message "pass")).raise (.message "pass")) ∧
    Task.drive {} ⟨1⟩ [.sequence stopping] {} runningWorld =
      ⟨none, Queue.pushAll {} [.forever [announce "tick"] false],
        (runningWorld.raise (.message "pass")).raise (.message "pass")⟩ :=
  have fits : Fits {} ⟨1⟩ [.sequence stopping] runningWorld := fits_of_work (by decide)
  ⟨rfl, fits, rfl, (drive_eq_of_eval {} ⟨1⟩ stopping runningWorld 2 _ _ _ rfl fits rfl {}).1⟩

end Example

end BlockStage.Structured
