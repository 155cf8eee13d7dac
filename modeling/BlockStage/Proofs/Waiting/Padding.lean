import BlockStage.Proofs.Waiting.Strides
import Mathlib.Data.List.Forall2

/-! Code with waits put in goes the same way as before, and rests in some more places. A step of
the code as it was is matched by the same step, behind the waits that stand in front of it and
followed by the passes of bodies that hold nothing but waits. -/

namespace BlockStage

def Instruction.IsWait (i : Instruction) : Prop := ∃ seconds, i.command = .wait seconds

/-- The second code is the first one with waits put in, anywhere and at any depth. -/
inductive Padded : List Instruction → List Instruction → Prop
  | nil : Padded [] []
  | wait {i : Instruction} {body body' : List Instruction} (wait : i.IsWait)
      (rest : Padded body body') : Padded body (i :: body')
  | keep {i : Instruction} {children elseChildren body body' : List Instruction}
      (inside : Padded i.children children) (otherwise : Padded i.elseChildren elseChildren)
      (rest : Padded body body') :
      Padded (i :: body) ({ i with children, elseChildren } :: body')

/-- The same, but a wait that was put in does not come first. -/
inductive Aligned : List Instruction → List Instruction → Prop
  | nil : Aligned [] []
  | cons {i : Instruction} {children elseChildren body body' : List Instruction}
      (inside : Padded i.children children) (otherwise : Padded i.elseChildren elseChildren)
      (rest : Padded body body') :
      Aligned (i :: body) ({ i with children, elseChildren } :: body')

theorem Padded.refl : (body : List Instruction) → Padded body body
  | [] => .nil
  | ⟨opcode, arguments, kind, command, children, elseChildren⟩ :: rest =>
    .keep (refl children) (refl elseChildren) (refl rest)

theorem Padded.isEmpty_of_cons {i : Instruction} {body body' : List Instruction}
    (h : Padded (i :: body) body') : body'.isEmpty = false := by
  cases h <;> rfl

variable {program : Program} {owner : ObjectId}

/-! ### Plain code stays plain -/

theorem Padded.of_mem {body body' : List Instruction} (h : Padded body body') {j : Instruction}
    (hj : j ∈ body') :
    j.IsWait ∨ ∃ i ∈ body, ∃ children elseChildren, Padded i.children children ∧
      Padded i.elseChildren elseChildren ∧ j = { i with children, elseChildren } := by
  induction h with
  | nil => contradiction
  | wait wait _ ih =>
    rcases List.mem_cons.1 hj with rfl | hj
    · exact .inl wait
    · exact ih hj
  | keep inside otherwise _ _ _ ih =>
    rcases List.mem_cons.1 hj with rfl | hj
    · exact .inr ⟨_, List.mem_cons_self, _, _, inside, otherwise, rfl⟩
    · rcases ih hj with wait | ⟨i, hi, kept⟩
      · exact .inl wait
      · exact .inr ⟨i, List.mem_cons_of_mem _ hi, kept⟩

theorem Instruction.framesFor_padded {i : Instruction} {children elseChildren : List Instruction}
    (inside : Padded i.children children) (otherwise : Padded i.elseChildren elseChildren)
    {frame : Frame}
    (h : frame ∈ ({ i with children, elseChildren } : Instruction).framesFor owner program) :
    ∃ frame₀ ∈ i.framesFor owner program, Padded frame₀.code frame.code := by
  obtain ⟨opcode, arguments, kind, command, children₀, elseChildren₀⟩ := i
  cases command with
  | repeatTimes count =>
    rw [List.mem_singleton.1 h]
    exact ⟨_, List.mem_singleton.2 rfl, inside⟩
  | ifThen condition =>
    rw [List.mem_singleton.1 h]
    exact ⟨_, List.mem_singleton.2 rfl, inside⟩
  | ifElse condition =>
    rcases List.mem_pair.1 h with rfl | rfl
    · exact ⟨_, List.mem_pair.2 (.inl rfl), inside⟩
    · exact ⟨_, List.mem_pair.2 (.inr rfl), otherwise⟩
  | whileHolds condition =>
    rw [List.mem_singleton.1 h]
    exact ⟨_, List.mem_singleton.2 rfl, inside⟩
  | forEach counter first last =>
    rw [List.mem_singleton.1 h]
    exact ⟨_, List.mem_singleton.2 rfl, inside⟩
  | call name => exact ⟨frame, h, .refl _⟩
  | _ => simp [framesFor] at h

theorem Comes.of_padded {body body' : List Instruction} {j : Instruction}
    (h : Comes program owner body' j) (padded : Padded body body') :
    j.IsWait ∨ ∃ i, Comes program owner body i ∧ i.command = j.command := by
  induction h generalizing body with
  | here hj =>
    rcases padded.of_mem hj with wait | ⟨i, hi, _, _, -, -, rfl⟩
    · exact .inl wait
    · exact .inr ⟨i, .here hi, rfl⟩
  | inside hj entered _ ih =>
    rcases padded.of_mem hj with ⟨seconds, wait⟩ | ⟨i, hi, _, _, inside, otherwise, rfl⟩
    · simp [Instruction.framesFor, wait] at entered
    · obtain ⟨frame₀, entered₀, padded'⟩ := Instruction.framesFor_padded inside otherwise entered
      rcases ih padded' with wait | ⟨i', comes, same⟩
      · exact .inl wait
      · exact .inr ⟨i', .inside hi entered₀ comes, same⟩

theorem Plain.padded {body body' : List Instruction} (plain : Plain program owner body)
    (padded : Padded body body') : Plain program owner body' := by
  intro j hj
  rcases hj.of_padded padded with ⟨seconds, wait⟩ | ⟨i, hi, same⟩
  · simp [Instruction.IsPlain, wait]
  · have here := plain i hi
    rwa [Instruction.IsPlain, same] at here

/-! ### Frames and flows -/

def Frame.Idles (frame : Frame) : Prop :=
  ∃ body, Padded [] body ∧ (frame = .sequence body ∨ ∃ left, frame = .repeatTimes body left)

inductive Frame.Padded : Frame → Frame → Prop
  | sequence {rest rest' : List Instruction} (h : BlockStage.Padded rest rest') :
      Frame.Padded (.sequence rest) (.sequence rest')
  | repeatTimes {body body' : List Instruction} (left : Nat) (h : BlockStage.Padded body body') :
      Frame.Padded (.repeatTimes body left) (.repeatTimes body' left)
  | whileHolds {body body' : List Instruction} (condition : Condition) (resting : Bool)
      (h : BlockStage.Padded body body') :
      Frame.Padded (.whileHolds condition body resting) (.whileHolds condition body' resting)
  | forEach {body body' : List Instruction} (counter : String) (next : Option Int64)
      (last : Int64) (h : BlockStage.Padded body body') :
      Frame.Padded (.forEach counter next last body) (.forEach counter next last body')

/-- The second instruction asks for the same, or for a frame of waits in place of nothing. -/
inductive Flow.Padded : Flow → Flow → Prop
  | next : Flow.Padded .next .next
  | idle {frame : Frame} (idles : frame.Idles) : Flow.Padded .next (.enter frame)
  | enter {frame frame' : Frame} (h : frame.Padded frame') :
      Flow.Padded (.enter frame) (.enter frame')
  | suspend (wake : Wake) : Flow.Padded (.suspend wake) (.suspend wake)
  | stop : Flow.Padded .stop .stop

namespace Instruction

theorem enterBody_padded {body body' : List Instruction} (h : Padded body body') :
    (enterBody body).Padded (enterBody body') := by
  cases body with
  | nil =>
    cases body' with
    | nil => exact .next
    | cons i rest => exact .idle ⟨_, h, .inl rfl⟩
  | cons i rest =>
    simp only [enterBody, h.isEmpty_of_cons, List.isEmpty_cons, Bool.false_eq_true, if_false]
    exact .enter (.sequence h)

theorem execute_padded (program : Program) (owner : ObjectId) {i : Instruction} (plain : i.IsPlain)
    {children elseChildren : List Instruction} (inside : Padded i.children children)
    (otherwise : Padded i.elseChildren elseChildren) (w : World) :
    let j : Instruction := { i with children, elseChildren }
    (i.execute owner program w).1.Padded (j.execute owner program w).1 ∧
      (j.execute owner program w).2 = (i.execute owner program w).2 := by
  obtain ⟨opcode, arguments, kind, command, children₀, elseChildren₀⟩ := i
  cases command with
  | glide target seconds relative => exact plain.elim
  | waitUntil condition => exact plain.elim
  | forever => exact plain.elim
  | wait seconds => exact ⟨.suspend _, rfl⟩
  | repeatTimes count =>
    simp only [execute]
    by_cases none : count = 0
    · simp only [none, true_or, if_true, and_true]
      exact .next
    · simp only [none, false_or]
      cases children₀ with
      | nil =>
        cases children with
        | nil => exact ⟨.next, rfl⟩
        | cons i rest => exact ⟨.idle ⟨_, inside, .inr ⟨count, rfl⟩⟩, rfl⟩
      | cons i rest =>
        simp only [inside.isEmpty_of_cons, List.isEmpty_cons, Bool.false_eq_true, if_false,
          and_true]
        exact .enter (.repeatTimes count inside)
  | ifThen condition =>
    simp only [execute]
    rcases condition.holds owner w with ⟨_ | _, w'⟩
    · exact ⟨.next, rfl⟩
    · exact ⟨enterBody_padded inside, rfl⟩
  | ifElse condition =>
    simp only [execute]
    rcases condition.holds owner w with ⟨_ | _, w'⟩
    · exact ⟨enterBody_padded otherwise, rfl⟩
    · exact ⟨enterBody_padded inside, rfl⟩
  | whileHolds condition => exact ⟨.enter (.whileHolds condition false inside), rfl⟩
  | forEach counter first last => exact ⟨.enter (.forEach counter (some first) last inside), rfl⟩
  | call name =>
    simp only [execute, and_true]
    split
    · exact .enter (.sequence (.refl _))
    · exact .next
  | stop => exact ⟨.stop, rfl⟩
  | destroy => exact ⟨.stop, rfl⟩
  | _ => exact ⟨.next, rfl⟩

end Instruction

/-! ### Steps -/

namespace Task

variable {top top' : Frame} {frames frames' below below' : List Frame} {w w' : World}

theorem step_of_running (running : w.running = true)
    (height : (top :: below).length ≤ mostFrames) :
    step program owner (top :: below) w = stepTop program owner top below w := by
  have room : decide (below.length < mostFrames) = true := decide_eq_true height
  rw [step, running, room, Bool.true_and, if_pos rfl]

theorem Low.step (low : Low program owner (top :: below, w)) (running : w.running = true) :
    Task.step program owner (top :: below) w = stepTop program owner top below w :=
  step_of_running running (low _ .refl)

theorem strides_wait {i : Instruction} {rest : List Instruction} (wait : i.IsWait)
    (running : w.running = true) (low : Low program owner (.sequence (i :: rest) :: below, w)) :
    Strides program owner (.sequence (i :: rest) :: below, w) (.sequence rest :: below, w) := by
  obtain ⟨seconds, wait⟩ := wait
  have move : step program owner (.sequence (i :: rest) :: below) w =
      (.suspend (.sequence rest :: below) (.time (w.now + seconds)), w) := by
    simp only [low.step running, stepTop, Frame.advance, Instruction.execute, wait, Move.ofFlow]
  -- A rest may last for no time at all, which leaves the world as it is.
  exact (Stride.rest w.now move).strides

theorem exists_aligned {body body' : List Instruction} (padded : Padded body body')
    (running : w.running = true) (low : Low program owner (.sequence body' :: below, w)) :
    ∃ body'', Aligned body body'' ∧
      Strides program owner (.sequence body' :: below, w) (.sequence body'' :: below, w) := by
  induction padded with
  | nil => exact ⟨[], .nil, .refl⟩
  | wait wait _ ih =>
    have passed := strides_wait wait running low
    obtain ⟨body'', aligned, way⟩ := ih (low.after passed)
    exact ⟨body'', aligned, passed.trans way⟩
  | keep inside otherwise rest => exact ⟨_, .cons inside otherwise rest, .refl⟩

theorem strides_pop (running : w.running = true) (low : Low program owner (top :: below, w))
    (ended : top.advance owner w = (.pop, w)) :
    Strides program owner (top :: below, w) (below, w) :=
  .of_go (by simp only [low.step running, stepTop, ended])

theorem strides_of_idles (idles : top.Idles) (running : w.running = true)
    (low : Low program owner (top :: below, w)) :
    Strides program owner (top :: below, w) (below, w) := by
  have sequence {body : List Instruction} {below : List Frame} (waits : Padded [] body)
      (low : Low program owner (.sequence body :: below, w)) :
      Strides program owner (.sequence body :: below, w) (below, w) := by
    obtain ⟨body'', aligned, way⟩ := exists_aligned waits running low
    cases aligned
    exact way.trans (strides_pop running (low.after way) rfl)
  obtain ⟨body, waits, rfl | ⟨left, rfl⟩⟩ := idles
  · exact sequence waits low
  -- Each pass that is left puts the waits on top of the loop once more.
  · induction left with
    | zero => exact strides_pop running low rfl
    | succ left ih =>
      have pass : Strides program owner (.repeatTimes body (left + 1) :: below, w)
          (.sequence body :: .repeatTimes body left :: below, w) :=
        .of_go (by simp only [low.step running, stepTop, Frame.advance])
      have passed := pass.trans (sequence waits (low.after pass))
      exact passed.trans (ih (low.after passed))

inductive Move.Padded : Move → Move → Prop
  | go {frames frames' : List Frame} (h : List.Forall₂ Frame.Padded frames frames') :
      Move.Padded (.go frames) (.go frames')
  | idle {frames frames' : List Frame} {frame : Frame} (idles : frame.Idles)
      (h : List.Forall₂ Frame.Padded frames frames') :
      Move.Padded (.go frames) (.go (frame :: frames'))
  | suspend {frames frames' : List Frame} (wake : Wake)
      (h : List.Forall₂ Frame.Padded frames frames') :
      Move.Padded (.suspend frames wake) (.suspend frames' wake)
  | finish : Move.Padded .finish .finish

theorem Move.padded_ofFlow {flow flow' : Flow} (h : flow.Padded flow')
    (padded : List.Forall₂ Frame.Padded frames frames') :
    (ofFlow frames flow).Padded (ofFlow frames' flow') := by
  cases h with
  | next => exact .go padded
  | idle idles => exact .idle idles padded
  | enter h => exact .go (.cons h padded)
  | suspend wake => exact .suspend wake padded
  | stop => exact .finish

/-- Behind the waits in front of it, a step of the padded stack is the step that was there. -/
theorem stepTop_padded (h : top.Padded top') (padded : List.Forall₂ Frame.Padded below below')
    (plain : PlainStack program owner (top :: below)) (running : w.running = true)
    (low : Low program owner (top' :: below', w)) :
    ∃ top'', Strides program owner (top' :: below', w) (top'' :: below', w) ∧
      (stepTop program owner top below w).1.Padded (stepTop program owner top'' below' w).1 ∧
      (stepTop program owner top'' below' w).2 = (stepTop program owner top below w).2 := by
  cases h with
  | sequence h =>
    obtain ⟨body, aligned, way⟩ := exists_aligned h running low
    refine ⟨.sequence body, way, ?_⟩
    cases aligned with
    | nil => exact ⟨.go padded, rfl⟩
    | cons inside otherwise rest =>
      obtain ⟨flow, world⟩ :=
        Instruction.execute_padded program owner plain.head inside otherwise w
      exact ⟨Move.padded_ofFlow flow (.cons (.sequence rest) padded), world⟩
  | repeatTimes left h =>
    refine ⟨_, .refl, ?_⟩
    cases left with
    | zero => exact ⟨.go padded, rfl⟩
    | succ left => exact ⟨.go (.cons (.sequence h) (.cons (.repeatTimes left h) padded)), rfl⟩
  | whileHolds condition resting h =>
    refine ⟨_, .refl, ?_⟩
    cases resting with
    | true => exact ⟨.suspend _ (.cons (.whileHolds condition false h) padded), rfl⟩
    | false =>
      simp only [stepTop, Frame.advance]
      rcases condition.holds owner w with ⟨_ | _, w'⟩
      · exact ⟨.go padded, rfl⟩
      · exact ⟨.go (.cons (.sequence h) (.cons (.whileHolds condition true h) padded)), rfl⟩
  | forEach counter next last h =>
    refine ⟨_, .refl, ?_⟩
    cases next with
    | none => exact ⟨.go padded, rfl⟩
    | some value =>
      exact ⟨.go (.cons (.sequence h) (.cons (.forEach counter _ last h) padded)), rfl⟩

theorem step_padded {move : Move} (h : step program owner frames w = (move, w'))
    (padded : List.Forall₂ Frame.Padded frames frames') (plain : PlainStack program owner frames)
    (running : w.running = true) (height : frames.length ≤ mostFrames)
    (low : Low program owner (frames', w)) :
    ∃ aligned move', Strides program owner (frames', w) (aligned, w) ∧
      step program owner aligned w = (move', w') ∧ move.Padded move' := by
  cases padded with
  | nil =>
    obtain ⟨rfl, rfl⟩ := Prod.mk.inj h
    exact ⟨[], .finish, .refl, rfl, .finish⟩
  | @cons top top' below below' matched padded =>
    obtain ⟨top'', way, same, world⟩ := stepTop_padded matched padded plain running low
    rw [step_of_running running height] at h
    rw [h] at same world
    refine ⟨top'' :: below', _, way, ?_, same⟩
    rw [(low.after way).step running]
    exact Prod.ext rfl world

/-! ### Whole ways -/

theorem height_of_step {move : Move} (h : step program owner frames w = (move, w'))
    (unfinished : move ≠ .finish) : frames.length ≤ mostFrames := by
  cases frames with
  | nil => exact Nat.zero_le _
  | cons top below =>
    rw [step] at h
    split at h
    · rename_i ready
      simp only [Bool.and_eq_true, decide_eq_true_eq] at ready
      exact ready.2
    · exact absurd (Prod.mk.inj h).1.symm unfinished

variable {x y : List Frame × World}

theorem Stride.padded (stride : Stride program owner x y)
    (padded : List.Forall₂ Frame.Padded x.1 frames') (plain : PlainStack program owner x.1)
    (running : x.2.running = true) (low : Low program owner (frames', x.2)) :
    ∃ later, Strides program owner (frames', x.2) (later, y.2) ∧
      List.Forall₂ Frame.Padded y.1 later := by
  cases stride with
  | go move =>
    obtain ⟨aligned, move', way, moved, matched⟩ :=
      step_padded move padded plain running (height_of_step move (by simp)) low
    cases matched with
    | go h => exact ⟨_, way.trans (.of_go moved), h⟩
    | idle idles h =>
      have entered := way.trans (.of_go moved)
      have running' := entered.grows.running.trans running
      exact ⟨_, entered.trans (strides_of_idles idles running' (low.after entered)), h⟩
  | rest time move =>
    obtain ⟨aligned, move', way, moved, matched⟩ :=
      step_padded move padded plain running (height_of_step move (by simp)) low
    cases matched with
    | suspend wake h => exact ⟨_, way.trans (Stride.rest time moved).strides, h⟩

theorem Strides.padded (strides : Strides program owner x y)
    (padded : List.Forall₂ Frame.Padded x.1 frames') (plain : PlainStack program owner x.1)
    (running : x.2.running = true) (low : Low program owner (frames', x.2)) :
    ∃ later, Strides program owner (frames', x.2) (later, y.2) ∧
      List.Forall₂ Frame.Padded y.1 later := by
  induction strides with
  | refl => exact ⟨frames', .refl, padded⟩
  | tail way stride ih =>
    obtain ⟨later, way', padded'⟩ := ih
    obtain ⟨last, further, padded''⟩ := stride.padded padded' (Strides.plain way plain)
      ((Strides.grows way).running.trans running) (low.after way')
    exact ⟨last, way'.trans further, padded''⟩

/-- Waits that are put in do not keep a task from its end, and leave no trace in the world. -/
theorem Completes.padded (completes : Completes program owner x w)
    (padded : List.Forall₂ Frame.Padded x.1 frames') (plain : PlainStack program owner x.1)
    (running : x.2.running = true) (low : Low program owner (frames', x.2)) :
    Completes program owner (frames', x.2) w := by
  obtain ⟨y, way, height, finish⟩ := completes
  obtain ⟨later, way', padded'⟩ := way.padded padded plain running low
  obtain ⟨aligned, move, way'', finish', matched⟩ := step_padded finish padded' (way.plain plain)
    (way.grows.running.trans running) height (low.after way')
  cases matched
  have whole := way'.trans way''
  exact ⟨_, whole, low _ whole, finish'⟩

end Task
end BlockStage
