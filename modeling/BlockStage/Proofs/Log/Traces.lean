import BlockStage.Proofs.Log.Chronicle

/-! A log followed step by step: every happening takes up the objects and effects that the one
before it left. -/

namespace BlockStage

theorem Instruction.execute_world (i : Instruction) (owner : ObjectId) (program : Program)
    (w : World) : (i.execute owner program w).2 = (i.execute owner {} w).2 := by
  obtain ⟨opcode, arguments, kind, command, children, elseChildren⟩ := i
  cases command with
  | call name =>
    simp only [execute]
    split <;> split <;> rfl
  | _ => rfl

theorem Condition.alike_holds (condition : Condition) (owner : ObjectId) (w : World) :
    World.Alike w (condition.holds owner w).2 := by
  cases condition <;> exact ⟨rfl, rfl⟩

def Happening.outcome : Happening → World
  | does _ deed =>
    match deed.act with
    | .executes i => (i.execute deed.owner {} deed.world).2
    | _ => deed.world
  | animates dt world => world.stepEffects dt
  | removes id world => world.removeObject id
  | edits scene world => { world with scene }

/-- The log leads from one world to the other. -/
def Trace : World → Log → World → Prop
  | w, [], w' => w.Alike w'
  | w, x :: rest, w' => w.Alike x.world ∧ Trace x.outcome rest w'

namespace Trace

variable {w w' w'' : World} {log log' : Log}

protected theorem refl (w : World) : Trace w [] w := World.Alike.refl w

theorem single (x : Happening) : Trace x.world [x] x.outcome := ⟨.refl _, .refl _⟩

theorem of_alike (same : w.Alike w') (h : Trace w' log w'') : Trace w log w'' := by
  cases log with
  | nil => exact same.trans h
  | cons x rest => exact ⟨same.trans h.1, h.2⟩

protected theorem append (first : Trace w log w') (second : Trace w' log' w'') :
    Trace w (log ++ log') w'' := by
  induction log generalizing w with
  | nil => exact second.of_alike first
  | cons x rest ih => exact ⟨first.1, ih first.2⟩

theorem split (h : Trace w (log ++ log') w'') : ∃ w', Trace w log w' ∧ Trace w' log' w'' := by
  induction log generalizing w with
  | nil => exact ⟨w, .refl w, h⟩
  | cons x rest ih =>
    obtain ⟨w', first, second⟩ := ih h.2
    exact ⟨w', ⟨h.1, first⟩, second⟩

end Trace

/-! ### Drives -/

variable {program : Program} {owner : ObjectId} {w w' : World}

theorem Frame.alike_advance (frame : Frame) (owner : ObjectId) (w : World) :
    World.Alike w (frame.advance owner w).2 := by
  cases frame with
  | sequence rest => cases rest <;> exact .refl w
  | repeatTimes body left => cases left <;> exact .refl w
  | forever body resting => cases resting <;> exact .refl w
  | whileHolds condition body resting =>
    cases resting with
    | true => exact .refl w
    | false =>
      have held := condition.alike_holds owner w
      simp only [advance]
      split <;> simp_all only
  | forEach counter next last body => cases next <;> exact ⟨rfl, rfl⟩

theorem Frame.eq_sequence_of_act? {top : Frame} {i : Instruction}
    (h : top.act? = some (.executes i)) : ∃ rest, top = .sequence (i :: rest) := by
  unfold act? at h
  split at h <;> simp at h
  exact ⟨_, by rw [h]⟩

namespace Task

theorem deeds_spawn {frames frames' : List Frame} {frame : Frame}
    (h : step program owner frames w = (.spawn frames' frame, w')) :
    deeds program owner frames w = stepDeeds owner frames w ++ deeds program owner frames' w' := by
  rw [deeds]
  split <;> simp_all

theorem deeds_halt {frames : List Frame} {move : Move}
    (h : step program owner frames w = (move, w')) (halts : move.ahead? = none) :
    deeds program owner frames w = stepDeeds owner frames w := by
  rw [deeds]
  split
  · rename_i go
    rw [go] at h
    rw [← (Prod.mk.inj h).1] at halts
    contradiction
  · rename_i spawn
    rw [spawn] at h
    rw [← (Prod.mk.inj h).1] at halts
    contradiction
  · rfl

theorem trace_step (task : Nat) {frames : List Frame} {move : Move}
    (h : step program owner frames w = (move, w')) :
    Trace w ((stepDeeds owner frames w).map (.does task)) w' := by
  have looked {top : Frame} {below : List Frame} {ask : Frame.Advance}
      (advance : top.advance owner w = (ask, w')) (idle : ∀ i self, ask ≠ .run i self) :
      Trace w ((stepDeeds owner (top :: below) w).map (.does task)) w' := by
    have same := top.alike_advance owner w
    rw [advance] at same
    unfold stepDeeds
    dsimp only
    split
    · cases act : top.act? with
      | none => exact same
      | some act' =>
        cases act' with
        | executes i =>
          obtain ⟨rest, rfl⟩ := Frame.eq_sequence_of_act? act
          exact absurd (Prod.mk.inj advance).1.symm (idle i (.sequence rest))
        | starts frame => exact ⟨.refl w, same⟩
        | checks condition => exact ⟨.refl w, same⟩
    · exact same
  have executed {i : Instruction} {rest : List Instruction} {below : List Frame} {flow : Flow}
      (ready : w.running = true ∧ below.length < mostFrames)
      (execute : i.execute owner program w = (flow, w')) :
      Trace w ((stepDeeds owner (.sequence (i :: rest) :: below) w).map (.does task)) w' := by
    have left : w' = (i.execute owner {} w).2 := by rw [← i.execute_world, execute]
    simp only [stepDeeds, ready.1, ready.2, decide_true, Bool.and_self, if_true, Frame.act?,
      Option.map_some, Option.toList_some, List.map_cons, List.map_nil, left]
    exact .single (.does task ⟨owner, .executes i, w⟩)
  cases steps_of_step h with
  | empty => exact .refl w
  | givenUp unready =>
    simp only [stepDeeds, Bool.and_eq_true, decide_eq_true_eq, if_neg unready]
    exact .refl w
  | pop _ advance => exact looked advance (by simp)
  | push _ advance => exact looked advance (by simp)
  | rest _ advance => exact looked advance (by simp)
  | next ready execute => exact executed ready execute
  | enter ready execute => exact executed ready execute
  | spawn ready execute => exact executed ready execute
  | suspend ready execute => exact executed ready execute
  | stop ready execute => exact executed ready execute

theorem trace_drive (task : Nat) (program : Program) (owner : ObjectId) (frames : List Frame)
    (q : Queue Frame) (w : World) :
    Trace w ((deeds program owner frames w).map (.does task))
      (drive program owner frames q w).world := by
  fun_induction drive program owner frames q w with
  | case1 frames q w frames' w' move ih =>
    rw [deeds_go move, List.map_append]
    exact (trace_step task move).append ih
  | case2 frames q w frames' frame w' move ih =>
    rw [deeds_spawn move, List.map_append]
    exact (trace_step task move).append ih
  | case3 frames q w frames' wake w' move =>
    rw [deeds_halt move rfl]
    exact trace_step task move
  | case4 frames q w w' move =>
    rw [deeds_halt move rfl]
    exact trace_step task move

end Task

/-! ### Episodes -/

theorem World.alike_wakes (t : Task) (w : World) : w.Alike (t.wakes w).2.2 := by
  unfold Task.wakes
  split
  · exact .refl w
  · exact .refl w
  · rename_i condition _ _
    have held := condition.alike_holds t.owner w
    split
    · exact .refl w
    · split <;> simp_all only

namespace Scheduler

theorem trace_nextLog (program : Program) (owner : ObjectId) (frame : Frame)
    (waiting : Queue Frame) (s : Scheduler) (w : World) :
    Trace w (s.nextLog program owner frame w)
      (startNext program owner frame waiting s w).2.2 := by
  unfold nextLog nextDeeds startNext
  split
  · exact .refl w
  · exact ⟨.refl w, Task.trace_drive s.nextId program owner [frame] waiting w⟩

theorem trace_visitLog (program : Program) (t : Task) (w : World) :
    Trace w (visitLog program t w) (visit program t w).2.2 := by
  have looked : Trace w ((pollDeeds t w).map (.does t.id)) w := by
    unfold pollDeeds
    split
    · split
      · exact .refl w
      · exact ⟨.refl w, .refl w⟩
    · exact .refl w
  have woken := World.alike_wakes t w
  unfold visitLog visitDeeds visit
  split
  · rw [List.map_append]
    refine looked.append ?_
    rcases hw : t.wakes w with ⟨_ | _, wake, w'⟩
    · rw [hw] at woken
      exact woken
    · rw [hw] at woken
      exact (Task.trace_drive t.id program t.owner t.frames {} w').of_alike woken
  · exact .refl w

end Scheduler

variable {m m' : Moment} {log : Log}

theorem Episode.trace (h : Episode m log m') : Trace m.2 log m'.2 := by
  cases h with
  | start program owner frame waiting s w =>
    exact Scheduler.trace_nextLog program owner frame waiting s w
  | visit program before t after nextId w => exact Scheduler.trace_visitLog program t w
  | drop _ _ w => exact .refl w
  | animate dt _ w => exact .single (.animates dt w)
  | remove id _ w => exact .single (.removes id w)
  | edit scene _ w => exact .single (.edits scene w)
  | aside alike => exact alike

theorem Chronicle.trace (h : Chronicle m log m') : Trace m.2 log m'.2 := by
  induction h with
  | refl m => exact .refl m.2
  | cons first _ ih => exact first.trace.append ih

end BlockStage
