import BlockStage.Proofs.Run.Spawning

/-! A log of what a run does in the name of its objects, kept beside the run itself: which frames
get a task, which instructions are executed, and which conditions are looked at. -/

namespace BlockStage

inductive Act
  | starts (frame : Frame)
  | executes (i : Instruction)
  | checks (condition : Condition)

/-- A start by itself runs no code. -/
def Act.Runs : Act → Prop
  | starts _ => False
  | _ => True

structure Deed where
  owner : ObjectId
  act : Act
  world : World

def Deed.Orphaned (d : Deed) : Prop := d.owner ∉ d.world.scene.ids

def Frame.IsLoop (frame : Frame) : Prop := ∃ body, body ≠ [] ∧ frame = .forever body false

/-- Code runs for an owner that is gone. -/
def RunsOrphaned (ds : List Deed) : Prop := ∃ d ∈ ds, d.act.Runs ∧ d.Orphaned

/-- The loop of a forever block gets its task when its owner is gone. -/
def LoopsOrphaned (ds : List Deed) : Prop :=
  ∃ d ∈ ds, (∃ frame, frame.IsLoop ∧ d.act = .starts frame) ∧ d.Orphaned

def Balanced (ds : List Deed) : Prop := RunsOrphaned ds ↔ LoopsOrphaned ds

theorem balanced_append {ds ds' : List Deed} (h : Balanced ds) (h' : Balanced ds') :
    Balanced (ds ++ ds') := by
  have runs : RunsOrphaned (ds ++ ds') ↔ RunsOrphaned ds ∨ RunsOrphaned ds' := by
    simp only [RunsOrphaned, List.mem_append, or_and_right, exists_or]
  have loops : LoopsOrphaned (ds ++ ds') ↔ LoopsOrphaned ds ∨ LoopsOrphaned ds' := by
    simp only [LoopsOrphaned, List.mem_append, or_and_right, exists_or]
  exact (runs.trans (or_congr h h')).trans loops.symm

theorem balanced_of_present {ds : List Deed} (h : ∀ d ∈ ds, ¬ d.Orphaned) : Balanced ds := by
  constructor
  · rintro ⟨d, hd, -, orphaned⟩
    exact absurd orphaned (h d hd)
  · rintro ⟨d, hd, -, orphaned⟩
    exact absurd orphaned (h d hd)

variable {program : Program} {owner : ObjectId} {w w' : World} {d : Deed}

/-! ### Drives -/

namespace Frame

def act? : Frame → Option Act
  | sequence (i :: _) => some (.executes i)
  | whileHolds condition _ false => some (.checks condition)
  | _ => none

theorem runs_of_act? {frame : Frame} {a : Act} (h : frame.act? = some a) : a.Runs := by
  unfold act? at h
  split at h <;> simp at h <;> subst h <;> trivial

end Frame

namespace Task

variable {frames frames' : List Frame}

def stepDeeds (owner : ObjectId) (frames : List Frame) (w : World) : List Deed :=
  match frames with
  | [] => []
  | top :: below =>
    if w.running && decide (below.length < mostFrames) then
      (top.act?.map fun act => ⟨owner, act, w⟩).toList
    else []

def deeds (program : Program) (owner : ObjectId) (frames : List Frame) (w : World) : List Deed :=
  match _h : step program owner frames w with
  | (.go frames', w') => stepDeeds owner frames w ++ deeds program owner frames' w'
  | (.spawn frames' _, w') => stepDeeds owner frames w ++ deeds program owner frames' w'
  | _ => stepDeeds owner frames w
termination_by work owner program frames
decreasing_by all_goals exact work_step (by rw [_h]; rfl)

theorem mem_stepDeeds (h : d ∈ stepDeeds owner frames w) :
    d.owner = owner ∧ d.world = w ∧ d.act.Runs := by
  unfold stepDeeds at h
  split at h
  · simp at h
  · split at h
    · obtain ⟨act, ha, rfl⟩ := Option.map_eq_some_iff.1 (Option.mem_toList.1 h)
      exact ⟨rfl, rfl, Frame.runs_of_act? ha⟩
    · simp at h

theorem mem_deeds (h : d ∈ deeds program owner frames w) :
    d.owner = owner ∧ d.act.Runs ∧ (owner ∈ w.scene.ids → ¬ d.Orphaned) := by
  have now {frames : List Frame} {w : World} (hd : d ∈ stepDeeds owner frames w) :
      d.owner = owner ∧ d.act.Runs ∧ (owner ∈ w.scene.ids → ¬ d.Orphaned) := by
    obtain ⟨same, world, runs⟩ := mem_stepDeeds hd
    refine ⟨same, runs, fun present orphaned => ?_⟩
    rw [Deed.Orphaned, same, world] at orphaned
    exact orphaned present
  fun_induction deeds program owner frames w with
  | case1 frames w frames' w' move ih =>
    rcases List.mem_append.1 h with here | later
    · exact now here
    · obtain ⟨same, runs, present⟩ := ih later
      exact ⟨same, runs, fun hw => present ((grows_of_go move).kept owner hw)⟩
  | case2 frames w frames' frame w' move ih =>
    rcases List.mem_append.1 h with here | later
    · exact now here
    · obtain ⟨i, rest, below, -, -, -, -, -, rfl⟩ := step_spawn move
      exact ih later
  | case3 frames w => exact now h

theorem deeds_go (h : step program owner frames w = (.go frames', w')) :
    deeds program owner frames w = stepDeeds owner frames w ++ deeds program owner frames' w' := by
  rw [deeds]
  split <;> simp_all

theorem stepDeeds_subset_deeds : stepDeeds owner frames w ⊆ deeds program owner frames w := by
  rw [deeds]
  split <;> simp

theorem runs_loop (program : Program) (owner : ObjectId) {frame : Frame} (loop : frame.IsLoop)
    (running : w.running = true) :
    ∃ d ∈ deeds program owner [frame] w, d.act.Runs ∧ d.owner = owner ∧ d.world = w := by
  obtain ⟨body, nonempty, rfl⟩ := loop
  obtain ⟨i, rest, rfl⟩ := List.exists_cons_of_ne_nil nonempty
  have pass : step program owner [.forever (i :: rest) false] w =
      (.go [.sequence (i :: rest), .forever (i :: rest) true], w) := by
    rw [step, if_pos (by simp [running, mostFrames])]
    rfl
  refine ⟨⟨owner, .executes i, w⟩, ?_, trivial, rfl, rfl⟩
  rw [deeds_go pass]
  refine List.mem_append_right _ (stepDeeds_subset_deeds ?_)
  simp [stepDeeds, running, mostFrames, Frame.act?]

end Task

/-! ### Starts -/

namespace Scheduler

def nextDeeds (program : Program) (owner : ObjectId) (frame : Frame) (s : Scheduler) (w : World) :
    List Deed :=
  if w.config.mostTasks ≤ s.tasks.length then []
  else ⟨owner, .starts frame, w⟩ :: Task.deeds program owner [frame] w

def startAllDeeds (program : Program) (owner : ObjectId) :
    (supply : Nat) → Queue Frame → Scheduler → World → List Deed
  | 0, _, _, _ => []
  | supply + 1, waiting, s, w =>
    match waiting.pop? with
    | none => []
    | some (frame, waiting) =>
      let (waiting, s', w') := startNext program owner frame waiting s w
      nextDeeds program owner frame s w ++ startAllDeeds program owner supply waiting s' w'

def startDeeds (program : Program) (owner : ObjectId) (frame : Frame) (s : Scheduler)
    (w : World) : List Deed :=
  startAllDeeds program owner mostStarts (.ofList [frame]) s w

def startEachDeeds (program : Program) :
    List (ObjectId × Frame) → Scheduler → World → List Deed
  | [], _, _ => []
  | (owner, frame) :: rest, s, w =>
    let (s', w') := start program owner frame s w
    startDeeds program owner frame s w ++ startEachDeeds program rest s' w'

variable {frame : Frame} {waiting : Queue Frame} {s : Scheduler}

theorem startAllDeeds_of_pop? {rest : Queue Frame} (h : waiting.pop? = some (frame, rest))
    (supply : Nat) :
    startAllDeeds program owner (supply + 1) waiting s w =
      let next := startNext program owner frame rest s w
      nextDeeds program owner frame s w ++
        startAllDeeds program owner supply next.1 next.2.1 next.2.2 := by
  simp only [startAllDeeds, h]

theorem startDeeds_eq_first (frame : Frame) (s : Scheduler) (w : World) :
    startDeeds program owner frame s w =
      let next := startNext program owner frame {} s w
      nextDeeds program owner frame s w ++
        startAllDeeds program owner (mostStarts - 1) next.1 next.2.1 next.2.2 :=
  startAllDeeds_of_pop? (rfl : (Queue.ofList [frame]).pop? = some (frame, {})) (mostStarts - 1)

theorem owner_of_nextDeeds (h : d ∈ nextDeeds program owner frame s w) : d.owner = owner := by
  unfold nextDeeds at h
  split at h
  · simp at h
  · rcases List.mem_cons.1 h with rfl | h
    · rfl
    · exact (Task.mem_deeds h).1

theorem owner_of_startAllDeeds {supply : Nat}
    (h : d ∈ startAllDeeds program owner supply waiting s w) : d.owner = owner := by
  induction supply generalizing waiting s w with
  | zero => simp [startAllDeeds] at h
  | succ supply ih =>
    simp only [startAllDeeds] at h
    split at h
    · simp at h
    · rcases List.mem_append.1 h with now | later
      · exact owner_of_nextDeeds now
      · exact ih later

theorem owner_of_startEachDeeds {starts : List (ObjectId × Frame)}
    (h : d ∈ startEachDeeds program starts s w) : ∃ p ∈ starts, d.owner = p.1 := by
  induction starts generalizing s w with
  | nil => simp [startEachDeeds] at h
  | cons p rest ih =>
    rcases List.mem_append.1 h with now | later
    · exact ⟨p, List.mem_cons_self, owner_of_startAllDeeds now⟩
    · obtain ⟨q, hq, same⟩ := ih later
      exact ⟨q, List.mem_cons_of_mem p hq, same⟩

/-- Frames that wait for their start behind others are loops. -/
theorem loops_startNext (loops : ∀ f ∈ waiting.toList, f.IsLoop) :
    ∀ f ∈ (startNext program owner frame waiting s w).1.toList, f.IsLoop := by
  unfold startNext
  split
  · exact loops
  · obtain ⟨spawned, origin, drive⟩ := Task.spawns_of_drive program owner [frame] w
    simp only [drive, Queue.toList_pushAll]
    intro f hf
    rcases List.mem_append.1 hf with old | new
    · exact loops f old
    · obtain ⟨_, -, body, nonempty, rfl, -⟩ := origin f new
      exact ⟨body, nonempty, rfl⟩

/-- A start for an owner that is gone is at once followed by code that runs for it. -/
theorem balanced_nextDeeds (running : w.running = true)
    (h : frame.IsLoop ∨ owner ∈ w.scene.ids) : Balanced (nextDeeds program owner frame s w) := by
  unfold nextDeeds
  split
  · exact balanced_of_present (by simp)
  · by_cases present : owner ∈ w.scene.ids
    · refine balanced_of_present fun d hd => ?_
      rcases List.mem_cons.1 hd with rfl | hd
      · exact fun orphaned => orphaned present
      · exact (Task.mem_deeds hd).2.2 present
    · have loop := h.resolve_right present
      obtain ⟨d, hd, runs, rfl, rfl⟩ := Task.runs_loop program owner loop running
      exact iff_of_true ⟨d, List.mem_cons_of_mem _ hd, runs, present⟩
        ⟨_, List.mem_cons_self, ⟨frame, loop, rfl⟩, present⟩

theorem running_startNext (program : Program) (owner : ObjectId) (frame : Frame)
    (waiting : Queue Frame) (s : Scheduler) (running : w.running = true) :
    (startNext program owner frame waiting s w).2.2.running = true := by
  rw [(kept_evolves.startNext program owner frame waiting s w).running, running]

theorem balanced_startAllDeeds {supply : Nat} (running : w.running = true)
    (loops : ∀ f ∈ waiting.toList, f.IsLoop) :
    Balanced (startAllDeeds program owner supply waiting s w) := by
  induction supply generalizing waiting s w with
  | zero => exact balanced_of_present (by simp [startAllDeeds])
  | succ supply ih =>
    simp only [startAllDeeds]
    split
    · exact balanced_of_present (by simp)
    · rename_i frame waiting' popped
      simp only [Queue.toList_of_pop? popped, List.forall_mem_cons] at loops
      exact balanced_append (balanced_nextDeeds running (.inl loops.1))
        (ih (running_startNext program owner frame waiting' s running) (loops_startNext loops.2))

theorem balanced_startDeeds (running : w.running = true)
    (h : frame.IsLoop ∨ owner ∈ w.scene.ids) : Balanced (startDeeds program owner frame s w) := by
  -- Only the first frame need not be a loop, so its round stands apart.
  rw [startDeeds_eq_first]
  exact balanced_append (balanced_nextDeeds running h)
    (balanced_startAllDeeds (running_startNext program owner frame _ s running)
      (loops_startNext (by simp [Queue.toList])))

theorem balanced_startEachDeeds {starts : List (ObjectId × Frame)} (running : w.running = true)
    (loops : ∀ p ∈ starts, p.2.IsLoop) : Balanced (startEachDeeds program starts s w) := by
  induction starts generalizing s w with
  | nil => exact balanced_of_present (by simp [startEachDeeds])
  | cons p rest ih =>
    rw [List.forall_mem_cons] at loops
    have running' : (start program p.1 p.2 s w).2.running = true := by
      rw [(kept_evolves.start program p.1 p.2 s w).running, running]
    exact balanced_append (balanced_startDeeds running (.inl loops.1)) (ih running' loops.2)

/-! ### Launches and ticks -/

def launchDeeds (program : Program) (owner : ObjectId) (body : List Instruction) (s : Scheduler)
    (w : World) : List Deed :=
  if w.running && !body.isEmpty && w.scene.contains owner then
    startDeeds program owner (.sequence body) s w
  else []

/-- A task that waits for a condition looks at it when its time has come. -/
def pollDeeds (t : Task) (w : World) : List Deed :=
  match t.wake with
  | .poll condition nextCheck =>
    if w.now + Task.clockTolerance < nextCheck then [] else [⟨t.owner, .checks condition, w⟩]
  | _ => []

def visitDeeds (program : Program) (t : Task) (w : World) : List Deed :=
  if w.scene.contains t.owner then
    pollDeeds t w ++
      match t.wakes w with
      | (true, _, w') => Task.deeds program t.owner t.frames w'
      | _ => []
  else []

def visitAllDeeds (program : Program) : List Task → World → List Deed
  | [], _ => []
  | t :: rest, w =>
    let (_, _, w') := visit program t w
    visitDeeds program t w ++ visitAllDeeds program rest w'

def tickDeeds (program : Program) (s : Scheduler) (w : World) : List Deed :=
  if w.running then
    let (tasks, spawned, w') := visitAll program s.tasks w
    visitAllDeeds program s.tasks w ++ startEachDeeds program spawned { s with tasks } w'
  else []

theorem balanced_launchDeeds {body : List Instruction} :
    Balanced (launchDeeds program owner body s w) := by
  unfold launchDeeds
  split
  · rename_i h
    simp only [Bool.and_eq_true, Scene.contains_iff] at h
    exact balanced_startDeeds h.1.1 (.inr h.2)
  · exact balanced_of_present (by simp)

theorem owner_of_launchDeeds {body : List Instruction}
    (h : d ∈ launchDeeds program owner body s w) : d.owner = owner ∧ owner ∈ w.scene.ids := by
  unfold launchDeeds at h
  split at h
  · rename_i there
    simp only [Bool.and_eq_true, Scene.contains_iff] at there
    exact ⟨owner_of_startAllDeeds h, there.2⟩
  · simp at h

theorem mem_visitDeeds {t : Task} (h : d ∈ visitDeeds program t w) :
    d.owner = t.owner ∧ t.owner ∈ w.scene.ids ∧ ¬ d.Orphaned := by
  unfold visitDeeds at h
  split at h
  · rename_i there
    have present := (w.scene.contains_iff t.owner).1 there
    rcases List.mem_append.1 h with polled | driven
    · unfold pollDeeds at polled
      split at polled
      · split at polled
        · simp at polled
        · rw [List.mem_singleton] at polled
          subst polled
          exact ⟨rfl, present, fun orphaned => orphaned present⟩
      · simp at polled
    · split at driven
      · rename_i w' woken
        have present' := (t.grows_wakes w).kept t.owner present
        rw [woken] at present'
        obtain ⟨same, -, there'⟩ := Task.mem_deeds driven
        exact ⟨same, present, there' present'⟩
      · simp at driven
  · simp at h

theorem mem_visitAllDeeds {tasks : List Task} (h : d ∈ visitAllDeeds program tasks w) :
    ¬ d.Orphaned := by
  induction tasks generalizing w with
  | nil => simp [visitAllDeeds] at h
  | cons t rest ih =>
    rcases List.mem_append.1 h with now | later
    · exact (mem_visitDeeds now).2.2
    · exact ih later

theorem loops_visitAll {tasks : List Task} :
    ∀ p ∈ (visitAll program tasks w).2.1, p.2.IsLoop := by
  induction tasks generalizing w with
  | nil => simp [visitAll]
  | cons t rest ih =>
    intro p hp
    simp only [visitAll, List.mem_append, List.mem_map] at hp
    rcases hp with ⟨f, hf, rfl⟩ | hp
    · obtain ⟨-, _, -, body, nonempty, rfl, -⟩ := spawned_of_visit program hf
      exact ⟨body, nonempty, rfl⟩
    · exact ih p hp

theorem balanced_tickDeeds : Balanced (tickDeeds program s w) := by
  unfold tickDeeds
  split
  · rename_i running
    have running' : (visitAll program s.tasks w).2.2.running = true := by
      rw [(kept_evolves.visitAll program s.tasks w).running, running]
    exact balanced_append (balanced_of_present fun d hd => mem_visitAllDeeds hd)
      (balanced_startEachDeeds running' loops_visitAll)
  · exact balanced_of_present (by simp)

end Scheduler

end BlockStage
