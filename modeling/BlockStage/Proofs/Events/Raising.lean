import BlockStage.Proofs.Removal.Final
import BlockStage.Proofs.Run.Quiet

/-! The events that a run raises, read off the log of its deeds. The queue of raised events gets
these and no others, each behind those that wait already. -/

namespace BlockStage

/-- Taking the amount brings the variable from above zero to zero or below. -/
def World.drains (w : World) (name : String) (amount : Float) : Bool :=
  0 < w.vars.get name && (w.vars.change name (-amount)).get name ≤ 0

def Instruction.raises (i : Instruction) (w : World) : List Event :=
  match i.command with
  | .broadcast text => [.message text]
  | .damage amount => if w.drains "health" amount then [.healthZero] else []
  | .loseLife => if w.drains "lives" 1 then [.livesZero] else []
  | .collectItem => [.itemCollected]
  | .defeatEnemy => [.enemyDefeated]
  | _ => []

def Event.toAll (event : Event) : RaisedEvent := ⟨event, none⟩

def Deed.raises (d : Deed) : List RaisedEvent :=
  match d.act with
  | .executes i => (i.raises d.world).map Event.toAll
  | _ => []

def raisedBy (ds : List Deed) : List RaisedEvent := ds.flatMap Deed.raises

/-- From one world to the other, just the events of some deeds are raised. -/
def Raises (w : World) (ds : List Deed) (w' : World) : Prop :=
  w'.raised.toList = w.raised.toList ++ raisedBy ds

namespace Raises

variable {w w' w'' : World} {ds ds' : List Deed}

theorem nothing (kept : w'.raised = w.raised) : Raises w [] w' := by
  rw [Raises, kept, raisedBy, List.flatMap_nil, List.append_nil]

theorem trans (first : Raises w ds w') (second : Raises w' ds' w'') : Raises w (ds ++ ds') w'' := by
  rw [Raises, second, first, List.append_assoc, raisedBy, raisedBy, raisedBy, List.flatMap_append]

end Raises

/-! ### Instructions and conditions -/

namespace World

variable (owner : ObjectId) (w : World)

theorem raised_speak (text : String) (seconds : Float32) :
    (w.speak owner text seconds).raised = w.raised := by
  unfold speak
  split <;> rfl

theorem raised_duplicate : (w.duplicate owner).raised = w.raised := by
  unfold duplicate
  split <;> rfl

theorem raised_removeObject : (w.removeObject owner).raised = w.raised := by
  unfold removeObject
  split <;> rfl

theorem raised_drain (name : String) (amount : Float) (event : Event) :
    (w.drain name amount event).raised.toList =
      w.raised.toList ++ (if w.drains name amount then [event] else []).map Event.toAll := by
  change (if w.drains name amount then (w.changeVar name (-amount)).raise event
    else w.changeVar name (-amount)).raised.toList = _
  split
  · exact Queue.toList_push _ _
  · exact (List.append_nil _).symm

end World

theorem Frame.raised_advance (frame : Frame) (owner : ObjectId) (w : World) :
    (frame.advance owner w).2.raised = w.raised := by
  cases frame with
  | sequence rest => cases rest <;> rfl
  | repeatTimes body left => cases left <;> rfl
  | forever body resting => cases resting <;> rfl
  | whileHolds condition body resting =>
    cases resting with
    | true => rfl
    | false =>
      have held := (condition.quiet_holds owner w).raised
      simp only [advance]
      split <;> simp_all only
  | forEach counter next last body => cases next <;> rfl

theorem Instruction.raised_execute (i : Instruction) (owner : ObjectId) (program : Program)
    (w : World) :
    (i.execute owner program w).2.raised.toList =
      w.raised.toList ++ (i.raises w).map Event.toAll := by
  obtain ⟨opcode, arguments, kind, command, children, elseChildren⟩ := i
  have quiet {w' : World} (kept : w'.raised = w.raised) :
      w'.raised.toList = w.raised.toList ++ ([] : List Event).map Event.toAll := by
    rw [kept, List.map_nil, List.append_nil]
  cases command with
  | say text seconds => exact quiet (w.raised_speak owner text seconds)
  | duplicate => exact quiet (w.raised_duplicate owner)
  | destroy => exact quiet (w.raised_removeObject owner)
  | broadcast text => exact Queue.toList_push _ _
  | collectItem => exact Queue.toList_push _ _
  | defeatEnemy => exact Queue.toList_push _ _
  | damage amount => exact w.raised_drain "health" amount .healthZero
  | loseLife => exact w.raised_drain "lives" 1 .livesZero
  | setVar | changeVar | resetVar | showVar | playSound | playTone | showMessage | spawnObject
  | heal | addScore | startTimer => exact quiet rfl
  | _ => exact quiet (quiet_execute _ owner program w id).raised

/-! ### Drives -/

namespace Task

variable {program : Program} {owner : ObjectId} {frames : List Frame} {w w' : World} {move : Move}

theorem raises_step (h : step program owner frames w = (move, w')) :
    Raises w (stepDeeds owner frames w) w' := by
  have advanced {top : Frame} {below : List Frame} {ask : Frame.Advance}
      (other : ∀ i self, ask ≠ .run i self) (ha : top.advance owner w = (ask, w')) :
      Raises w (stepDeeds owner (top :: below) w) w' := by
    have kept := top.raised_advance owner w
    rw [ha] at kept
    -- A loop that checks its condition is in the log, but a check raises nothing.
    have none_raised : raisedBy (stepDeeds owner (top :: below) w) = [] := by
      simp only [stepDeeds]
      split
      · fun_cases Frame.act? top
        · cases ha
          exact absurd rfl (other _ _)
        · rfl
        · rfl
      · rfl
    rw [Raises, kept, none_raised, List.append_nil]
  have executed {i : Instruction} {rest : List Instruction} {below : List Frame} {flow : Flow}
      (ready : w.running = true ∧ below.length < mostFrames)
      (he : i.execute owner program w = (flow, w')) :
      Raises w (stepDeeds owner (.sequence (i :: rest) :: below) w) w' := by
    have raised := i.raised_execute owner program w
    rw [he] at raised
    have logged : stepDeeds owner (.sequence (i :: rest) :: below) w =
        [⟨owner, .executes i, w⟩] := by
      simp only [stepDeeds, ready, decide_true, Bool.and_self, if_true]
      rfl
    rw [Raises, raised, logged, raisedBy, List.flatMap_singleton]
    rfl
  cases steps_of_step h with
  | empty => exact .nothing rfl
  | givenUp unready =>
    rw [stepDeeds, if_neg (by simpa using unready)]
    exact .nothing rfl
  | pop _ advance => exact advanced (by simp) advance
  | push _ advance => exact advanced (by simp) advance
  | rest _ advance => exact advanced (by simp) advance
  | next ready execute => exact executed ready execute
  | enter ready execute => exact executed ready execute
  | spawn ready execute => exact executed ready execute
  | suspend ready execute => exact executed ready execute
  | stop ready execute => exact executed ready execute

theorem raises_drive (program : Program) (owner : ObjectId) (frames : List Frame)
    (q : Queue Frame) (w : World) :
    Raises w (deeds program owner frames w) (drive program owner frames q w).world := by
  fun_induction deeds program owner frames w generalizing q with
  | case1 frames w frames' w' move ih =>
    rw [drive_go move]
    exact (raises_step move).trans (ih q)
  | case2 frames w frames' frame w' move ih =>
    rw [drive_spawn move]
    exact (raises_step move).trans (ih _)
  | case3 frames w no_go no_spawn =>
    rcases hm : step program owner frames w with ⟨move, w'⟩
    cases move with
    | go frames' => exact absurd hm (no_go _ _)
    | spawn frames' frame => exact absurd hm (no_spawn _ _ _)
    | suspend frames' wake =>
      rw [drive_suspend hm]
      exact raises_step hm
    | finish =>
      rw [drive_finish hm]
      exact raises_step hm

theorem raised_wakes (t : Task) (w : World) : (t.wakes w).2.2.raised = w.raised := by
  unfold wakes
  split
  · rfl
  · rfl
  · rename_i condition _ _
    have held := (condition.quiet_holds t.owner w).raised
    split
    · rfl
    · split <;> simp_all only

end Task

/-! ### Starts, launches and ticks -/

namespace Scheduler

variable (program : Program) (owner : ObjectId)

theorem raises_startNext (frame : Frame) (waiting : Queue Frame) (s : Scheduler) (w : World) :
    Raises w (nextDeeds program owner frame s w)
      (startNext program owner frame waiting s w).2.2 := by
  unfold startNext nextDeeds
  split
  · exact .nothing rfl
  · exact Task.raises_drive program owner [frame] waiting w

theorem raises_startAll (supply : Nat) (waiting : Queue Frame) (s : Scheduler) (w : World) :
    Raises w (startAllDeeds program owner supply waiting s w)
      (startAll program owner supply waiting s w).2 := by
  induction supply generalizing waiting s w with
  | zero => exact .nothing rfl
  | succ supply ih =>
    simp only [startAll, startAllDeeds]
    cases waiting.pop? with
    | none => exact .nothing rfl
    | some popped => exact (raises_startNext program owner popped.1 popped.2 s w).trans (ih _ _ _)

theorem raises_start (frame : Frame) (s : Scheduler) (w : World) :
    Raises w (startDeeds program owner frame s w) (start program owner frame s w).2 :=
  raises_startAll program owner mostStarts _ s w

theorem raises_startEach (starts : List (ObjectId × Frame)) (s : Scheduler) (w : World) :
    Raises w (startEachDeeds program starts s w) (startEach program starts s w).2 := by
  induction starts generalizing s w with
  | nil => exact .nothing rfl
  | cons p rest ih => exact (raises_start program p.1 p.2 s w).trans (ih _ _)

theorem raises_launch (body : List Instruction) (s : Scheduler) (w : World) :
    Raises w (launchDeeds program owner body s w) (launch program owner body s w).2 := by
  unfold launch launchDeeds
  split
  · exact raises_start program owner _ s w
  · exact .nothing rfl

theorem raises_visit (t : Task) (w : World) :
    Raises w (visitDeeds program t w) (visit program t w).2.2 := by
  have polled {w' : World} (kept : w'.raised = w.raised) : Raises w (pollDeeds t w) w' := by
    have none_raised : raisedBy (pollDeeds t w) = [] := by
      unfold pollDeeds
      split
      · split <;> rfl
      · rfl
    rw [Raises, kept, none_raised, List.append_nil]
  have kept := t.raised_wakes w
  unfold visit visitDeeds
  split
  · rcases hw : t.wakes w with ⟨_ | _, wake, w'⟩
    · rw [hw] at kept
      simpa only [List.append_nil] using polled kept
    · rw [hw] at kept
      exact (polled kept).trans (Task.raises_drive program t.owner t.frames {} w')
  · exact .nothing rfl

theorem raises_visitAll (tasks : List Task) (w : World) :
    Raises w (visitAllDeeds program tasks w) (visitAll program tasks w).2.2 := by
  induction tasks generalizing w with
  | nil => exact .nothing rfl
  | cons t rest ih => exact (raises_visit program t w).trans (ih _)

theorem raises_tick (s : Scheduler) (w : World) :
    Raises w (tickDeeds program s w) (tick program s w).2 := by
  by_cases running : w.running = true
  · rw [tick_eq program s running, tickDeeds, if_pos running]
    exact (raises_visitAll program s.tasks w).trans (raises_startEach program _ _ _)
  · rw [tick, tickDeeds, if_neg running, if_neg running]
    exact .nothing rfl

end Scheduler

namespace Dispatcher

variable (d : Dispatcher) (s : Scheduler) (w : World)

theorem raises_launchAll (entries : List Program.Entry) :
    Raises w (d.launchAllDeeds entries s w) (d.launchAll entries s w).2.2 := by
  induction entries generalizing s w with
  | nil => exact .nothing rfl
  | cons entry rest ih =>
    rw [launchAll, launchAllDeeds]
    split
    · exact (Scheduler.raises_launch d.program entry.owner _ s w).trans (ih _ _)
    · exact ih s w

theorem raises_dispatch (event : Event) (target : Option ObjectId) :
    Raises w (d.dispatchDeeds event target s w) (d.dispatch event target s w).2.2 := by
  unfold dispatch dispatchDeeds
  split
  · exact d.raises_launchAll s w _
  · exact .nothing rfl

theorem raises_fireAll (timers : List Timer) :
    Raises w (d.fireAllDeeds timers s w) (d.fireAll timers s w).2.2 := by
  induction timers generalizing s w with
  | nil => exact .nothing rfl
  | cons t rest ih =>
    rw [fireAll, fireAllDeeds]
    split
    · exact (Scheduler.raises_launch d.program t.entry.owner _ s w).trans (ih _ _)
    · exact ih s w

theorem raises_fireTimers :
    Raises w (d.fireDeeds s w) (d.fireTimers s w).2.2 := by
  unfold fireTimers fireDeeds
  split
  · exact d.raises_fireAll s w d.timers
  · exact .nothing rfl

end Dispatcher
end BlockStage
