import BlockStage.Proofs.Run.Recast
import BlockStage.Proofs.Run.Spawning
import Mathlib.Logic.Relation

/-! The way of a task through its halts. A stride is a step that goes on, or a rest until some time
has come; which time that is makes no difference to the way. -/

namespace BlockStage

/-! ### Another time -/

def World.withNow (w : World) (time : Float) : World := { w with now := time }

theorem World.withNow_eq_recast (w : World) (time : Float) :
    w.withNow time = w.recast (fun _ => time) 0 := by
  rw [withNow, recast, Registry.shift_zero]

def Wake.untimed : Wake → Wake
  | time _ => time 0
  | poll condition _ => poll condition 0
  | effect id => effect id

def Flow.untimed : Flow → Flow
  | suspend wake => suspend wake.untimed
  | other => other

variable (program : Program) (owner : ObjectId)

theorem Instruction.execute_withNow (i : Instruction) (w : World) (time : Float) :
    (i.execute owner program (w.withNow time)).1.untimed =
        (i.execute owner program w).1.untimed ∧
      (i.execute owner program (w.withNow time)).2 =
        (i.execute owner program w).2.withNow time := by
  by_cases timed : i.IsTimed
  · obtain ⟨opcode, arguments, kind, command, children, elseChildren⟩ := i
    cases command with
    | wait seconds => simp only [execute, Flow.untimed, Wake.untimed, and_self]
    | waitUntil condition =>
      simp only [execute, World.withNow_eq_recast, World.recast_holds]
      rcases condition.holds owner w with ⟨_ | _, w'⟩ <;>
        simp [Flow.untimed, Wake.untimed]
    | _ => exact timed.elim
  · simp only [World.withNow_eq_recast, execute_recast i owner program w (.inr timed),
      Flow.shift_zero, and_self]

namespace Task

def Move.untimed : Move → Move
  | suspend frames wake => suspend frames wake.untimed
  | other => other

theorem Move.untimed_ofFlow (frames : List Frame) (flow : Flow) :
    (ofFlow frames flow).untimed = ofFlow frames flow.untimed := by
  cases flow <;> rfl

theorem stepTop_withNow (top : Frame) (below : List Frame) (w : World) (time : Float) :
    (stepTop program owner top below (w.withNow time)).1.untimed =
        (stepTop program owner top below w).1.untimed ∧
      (stepTop program owner top below (w.withNow time)).2 =
        (stepTop program owner top below w).2.withNow time := by
  by_cases resting : top.IsResting
  · cases top with
    | forever body awake =>
      obtain rfl : awake = true := resting
      simp only [stepTop, Frame.advance, Frame.loopWake, Move.untimed, Wake.untimed, and_self]
    | whileHolds condition body awake =>
      obtain rfl : awake = true := resting
      simp only [stepTop, Frame.advance, Frame.loopWake, Move.untimed, Wake.untimed, and_self]
    | _ => exact resting.elim
  · have advanced : top.advance owner (w.withNow time) =
        ((top.advance owner w).1, (top.advance owner w).2.withNow time) := by
      simp only [World.withNow_eq_recast, top.advance_recast owner w (.inr resting)]
    simp only [stepTop, advanced]
    rcases top.advance owner w with ⟨ask, w₁⟩
    cases ask with
    | run i self =>
      obtain ⟨flow, world⟩ := i.execute_withNow program owner w₁ time
      simp only [Move.untimed_ofFlow, flow, world, and_self]
    | _ => exact ⟨rfl, rfl⟩

theorem step_withNow (frames : List Frame) (w : World) (time : Float) :
    (step program owner frames (w.withNow time)).1.untimed =
        (step program owner frames w).1.untimed ∧
      (step program owner frames (w.withNow time)).2 =
        (step program owner frames w).2.withNow time := by
  cases frames with
  | nil => exact ⟨rfl, rfl⟩
  | cons top below =>
    have running : (w.withNow time).running = w.running := rfl
    by_cases ready : (w.running && decide (below.length < mostFrames)) = true
    · simp only [step, running, ready, if_true]
      exact stepTop_withNow program owner top below w time
    · simp only [step, running, ready]
      exact ⟨rfl, rfl⟩

variable {program owner} {frames frames' : List Frame} {w w' : World}

theorem exists_withNow {move : Move} (h : step program owner frames w = (move, w'))
    (time : Float) :
    ∃ move', step program owner frames (w.withNow time) = (move', w'.withNow time) ∧
      move'.untimed = move.untimed := by
  obtain ⟨same, world⟩ := step_withNow program owner frames w time
  rw [h] at same world
  exact ⟨_, Prod.ext rfl world, same⟩

theorem go_withNow (h : step program owner frames w = (.go frames', w')) (time : Float) :
    step program owner frames (w.withNow time) = (.go frames', w'.withNow time) := by
  obtain ⟨move, later, same⟩ := exists_withNow h time
  cases move <;> simp_all [Move.untimed]

theorem finish_withNow (h : step program owner frames w = (.finish, w')) (time : Float) :
    step program owner frames (w.withNow time) = (.finish, w'.withNow time) := by
  obtain ⟨move, later, same⟩ := exists_withNow h time
  cases move <;> simp_all [Move.untimed]

theorem suspend_withNow {seconds : Float}
    (h : step program owner frames w = (.suspend frames' (.time seconds), w')) (time : Float) :
    ∃ seconds', step program owner frames (w.withNow time) =
      (.suspend frames' (.time seconds'), w'.withNow time) := by
  obtain ⟨move, later, same⟩ := exists_withNow h time
  cases move with
  | suspend frames'' wake => cases wake <;> simp_all [Move.untimed, Wake.untimed]
  | _ => simp [Move.untimed] at same

/-! ### Strides -/

/-- A task goes on, or rests until some time. -/
inductive Stride (program : Program) (owner : ObjectId) :
    List Frame × World → List Frame × World → Prop
  | go {frames frames' : List Frame} {w w' : World}
      (move : step program owner frames w = (.go frames', w')) :
      Stride program owner (frames, w) (frames', w')
  | rest {frames frames' : List Frame} {w w' : World} {seconds : Float} (time : Float)
      (move : step program owner frames w = (.suspend frames' (.time seconds), w')) :
      Stride program owner (frames, w) (frames', w'.withNow time)

def Strides (program : Program) (owner : ObjectId) :
    List Frame × World → List Frame × World → Prop :=
  Relation.ReflTransGen (Stride program owner)

variable {x y z : List Frame × World}

theorem Strides.trans (first : Strides program owner x y) (second : Strides program owner y z) :
    Strides program owner x z :=
  Relation.ReflTransGen.trans first second

theorem Stride.strides (h : Stride program owner x y) : Strides program owner x y := .single h

theorem Strides.of_go (move : step program owner frames w = (.go frames', w')) :
    Strides program owner (frames, w) (frames', w') := (Stride.go move).strides

theorem Stride.grows (h : Stride program owner x y) : Grows x.2 y.2 := by
  cases h with
  | go move => exact grows_of_step move (by simp)
  | rest time move => exact (grows_of_step move (by simp)).trans (.of_ids rfl rfl rfl)

theorem Strides.grows (h : Strides program owner x y) : Grows x.2 y.2 := by
  induction h with
  | refl => exact .refl x.2
  | tail _ stride ih => exact ih.trans stride.grows

def Low (program : Program) (owner : ObjectId) (x : List Frame × World) : Prop :=
  ∀ y, Strides program owner x y → y.1.length ≤ mostFrames

theorem Low.after (low : Low program owner x) (way : Strides program owner x y) :
    Low program owner y := fun _ later => low _ (way.trans later)

def Completes (program : Program) (owner : ObjectId) (x : List Frame × World) (w : World) : Prop :=
  ∃ y, Strides program owner x y ∧ y.1.length ≤ mostFrames ∧
    step program owner y.1 y.2 = (.finish, w)

end Task

/-! ### Plain code -/

/-- The instruction does its work at once, or waits for a time. -/
def Instruction.IsPlain (i : Instruction) : Prop :=
  match i.command with
  | .forever | .waitUntil _ | .glide _ _ _ => False
  | _ => True

variable {program : Program} {owner : ObjectId}

def Plain (program : Program) (owner : ObjectId) (code : List Instruction) : Prop :=
  ∀ i, Comes program owner code i → i.IsPlain

theorem Instruction.execute_suspend {i : Instruction} (plain : i.IsPlain) {wake : Wake}
    {w w' : World} (h : i.execute owner program w = (.suspend wake, w')) :
    (∃ seconds, i.command = .wait seconds ∧ wake = .time (w.now + seconds)) ∧ w' = w := by
  cases asks_of_execute h with
  | wait command => exact ⟨⟨_, command, rfl⟩, rfl⟩
  | poll command => simp [IsPlain, command] at plain
  | glide command => simp [IsPlain, command] at plain

namespace Task

variable {frames frames' spawned : List Frame} {w w' : World} {x y : List Frame × World}

def PlainStack (program : Program) (owner : ObjectId) (frames : List Frame) : Prop :=
  ∀ f ∈ frames, Plain program owner f.code

theorem PlainStack.head {i : Instruction} {rest : List Instruction} {below : List Frame}
    (plain : PlainStack program owner (.sequence (i :: rest) :: below)) : i.IsPlain :=
  plain _ List.mem_cons_self i (.here List.mem_cons_self)

theorem PlainStack.step (plain : PlainStack program owner frames) {move : Move}
    (h : step program owner frames w = (move, w')) : PlainStack program owner move.left := by
  intro f hf i hi
  obtain ⟨g, hg, comes⟩ := comes_of_step h f hf
  exact plain g hg i (comes i hi)

theorem Strides.plain (h : Strides program owner x y) (plain : PlainStack program owner x.1) :
    PlainStack program owner y.1 := by
  induction h with
  | refl => exact plain
  | tail _ stride ih =>
    cases stride with
    | go move => exact ih.step move
    | rest time move => exact ih.step move

theorem time_of_suspend (plain : PlainStack program owner frames) {wake : Wake}
    (h : step program owner frames w = (.suspend frames' wake, w')) :
    ∃ seconds, wake = .time seconds := by
  cases steps_of_step h with
  | rest _ advance => exact ⟨_, Frame.wake_of_advance_rest advance⟩
  | suspend _ execute =>
    obtain ⟨⟨seconds, -, rfl⟩, -⟩ := Instruction.execute_suspend plain.head execute
    exact ⟨_, rfl⟩

theorem strides_of_passes (plain : PlainStack program owner frames)
    (path : Passes program owner frames w spawned frames' w') :
    spawned = [] ∧ Strides program owner (frames, w) (frames', w') := by
  induction path with
  | refl => exact ⟨rfl, .refl⟩
  | go move _ ih =>
    obtain ⟨none_spawned, later⟩ := ih (plain.step move)
    exact ⟨none_spawned, (Strides.of_go move).trans later⟩
  | spawn move _ _ =>
    obtain ⟨i, rest, below, rfl, -, forever, -⟩ := step_spawn move
    have here := plain.head
    simp [Instruction.IsPlain, forever] at here

theorem drive_plain (plain : PlainStack program owner frames) (q : Queue Frame) :
    ∃ last w₁, Passes program owner frames w [] last w₁ ∧
      ((∃ frames' seconds w', step program owner last w₁ = (.suspend frames' (.time seconds), w') ∧
          drive program owner frames q w = ⟨some (frames', .time seconds), q, w'⟩) ∨
        ∃ w', step program owner last w₁ = (.finish, w') ∧
          drive program owner frames q w = ⟨none, q, w'⟩) := by
  obtain ⟨spawned, last, w₁, path, h⟩ := drive_eq program owner frames w
  obtain ⟨rfl, way⟩ := strides_of_passes plain path
  refine ⟨last, w₁, path, ?_⟩
  rcases h with ⟨frames', wake, w', move, eq⟩ | ⟨w', move, eq⟩
  · obtain ⟨seconds, rfl⟩ := time_of_suspend (way.plain plain) move
    exact .inl ⟨frames', seconds, w', move, eq q⟩
  · exact .inr ⟨w', move, eq q⟩

end Task
end BlockStage
