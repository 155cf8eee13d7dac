import BlockStage.Proofs.Run.Halting

/-! The live tasks of a scheduler, whatever it is asked to do: they stand in the order of their
numbers, each of them waits, and there are never too many. -/

namespace BlockStage

/-- The same wait, perhaps to be looked at again at another time. -/
inductive Wake.PutOff : Wake → Wake → Prop
  | same (wake : Wake) : PutOff wake wake
  | poll (condition : Condition) (first later : Float) :
      PutOff (.poll condition first) (.poll condition later)

theorem Wake.PutOff.trans {a b c : Wake} (first : PutOff a b) (second : PutOff b c) :
    PutOff a c := by
  cases first with
  | same => exact second
  | poll condition first later =>
    cases second with
    | same => exact .poll condition first later
    | poll _ _ last => exact .poll condition first last

namespace Task

/-- The task is suspended: some drive of it has left just these frames, and the wait it asked for is
not over. -/
def Waits (t : Task) : Prop :=
  ∃ program frames q w wake,
    (drive program t.owner frames q w).suspended = some (t.frames, wake) ∧ wake.PutOff t.wake

theorem Waits.frames {t : Task} (h : t.Waits) : t.frames ≠ [] ∧ t.frames.length ≤ mostFrames := by
  obtain ⟨program, frames, q, w, wake, drive, -⟩ := h
  exact frames_of_drive drive

theorem putOff_wakes (t : Task) (w : World) : t.wake.PutOff (t.wakes w).2.1 := by
  unfold wakes
  split
  · exact .same _
  · exact .same _
  · rename_i condition nextCheck asked
    split
    · exact .same _
    · split
      · exact .same _
      · rw [asked]
        exact .poll _ _ _

def badge (t : Task) : Nat × ObjectId := (t.id, t.owner)

end Task

namespace Scheduler

structure Numbered (s : Scheduler) : Prop where
  increasing : (s.tasks.map (·.id)).Pairwise (· < ·)
  below : ∀ t ∈ s.tasks, t.id < s.nextId

structure Orderly (limit : Nat) (s : Scheduler) : Prop where
  increasing : (s.tasks.map (·.id)).Pairwise (· < ·)
  below : ∀ t ∈ s.tasks, t.id < s.nextId
  waits : ∀ t ∈ s.tasks, t.Waits
  room : s.tasks.length ≤ limit

/-- Some work of a scheduler: numbers are handed out upwards, and a task with an old number is the
one that had it before. -/
structure Continued (s s' : Scheduler) : Prop where
  nextId_le : s.nextId ≤ s'.nextId
  known : ∀ t' ∈ s'.tasks, t'.id < s.nextId → ∃ t ∈ s.tasks, t.badge = t'.badge

namespace Continued

variable {s s' s'' : Scheduler}

protected theorem refl (s : Scheduler) : Continued s s :=
  ⟨Nat.le_refl _, fun t ht _ => ⟨t, ht, rfl⟩⟩

protected theorem trans (first : Continued s s') (second : Continued s' s'') :
    Continued s s'' where
  nextId_le := Nat.le_trans first.nextId_le second.nextId_le
  known t ht old := by
    obtain ⟨t', ht', same⟩ := second.known t ht (Nat.lt_of_lt_of_le old first.nextId_le)
    have id : t'.id = t.id := congrArg Prod.fst same
    obtain ⟨t'', ht'', same'⟩ := first.known t' ht' (id ▸ old)
    exact ⟨t'', ht'', same'.trans same⟩

end Continued

variable {limit : Nat} {s : Scheduler} {w : World}

/-! ### Fewer tasks -/

/-- Tasks that are what is left of those of a scheduler, in their order. -/
def LeftOf (tasks tasks' : List Task) : Prop :=
  (tasks'.map Task.badge).Sublist (tasks.map Task.badge)

theorem LeftOf.exists_mem {tasks tasks' : List Task} (h : LeftOf tasks tasks') :
    ∀ t' ∈ tasks', ∃ t ∈ tasks, t.badge = t'.badge :=
  fun _ ht => List.mem_map.1 (h.subset (List.mem_map_of_mem ht))

theorem Numbered.thin (h : s.Numbered) {tasks : List Task} (left : LeftOf s.tasks tasks) :
    Numbered { s with tasks } where
  increasing := by
    have ids := left.map Prod.fst
    simp only [List.map_map] at ids
    exact h.increasing.sublist ids
  below t' ht := by
    obtain ⟨t, ht, same⟩ := left.exists_mem t' ht
    have id : t.id = t'.id := congrArg Prod.fst same
    exact id ▸ h.below t ht

theorem Orderly.numbered (h : s.Orderly limit) : s.Numbered := ⟨h.increasing, h.below⟩

theorem Orderly.thin (h : s.Orderly limit) {tasks : List Task} (left : LeftOf s.tasks tasks)
    (waits : ∀ t ∈ tasks, t.Waits) : Orderly limit { s with tasks } where
  increasing := (h.numbered.thin left).increasing
  below := (h.numbered.thin left).below
  waits := waits
  room := by
    have fewer := left.length_le
    simp only [List.length_map] at fewer
    exact Nat.le_trans fewer h.room

theorem Continued.thin {tasks : List Task} (left : LeftOf s.tasks tasks) :
    Continued s { s with tasks } :=
  ⟨Nat.le_refl _, fun t ht _ => left.exists_mem t ht⟩

theorem leftOf_filter (tasks : List Task) (p : Task → Bool) : LeftOf tasks (tasks.filter p) :=
  List.filter_sublist.map _

theorem leftOf_nil (tasks : List Task) : LeftOf tasks [] := List.nil_sublist _

/-! ### Starts -/

variable (program : Program) (owner : ObjectId)

theorem orderly_startNext (h : s.Orderly limit) (hw : w.config.mostTasks = limit) (frame : Frame)
    (waiting : Queue Frame) : Orderly limit (startNext program owner frame waiting s w).2.1 := by
  unfold startNext
  split
  · exact h
  · rename_i free
    dsimp only
    split
    · rename_i frames wake suspended
      refine ⟨?_, ?_, ?_, ?_⟩
      · simp only [List.map_append, List.map_cons, List.map_nil, List.pairwise_append,
          List.mem_map, List.mem_singleton]
        refine ⟨h.increasing, List.pairwise_singleton _ _, ?_⟩
        rintro _ ⟨t, ht, rfl⟩ _ rfl
        exact h.below t ht
      · simp only [List.mem_append, List.mem_singleton]
        rintro t (ht | rfl)
        · exact Nat.lt_succ_of_lt (h.below t ht)
        · exact Nat.lt_succ_self _
      · simp only [List.mem_append, List.mem_singleton]
        rintro t (ht | rfl)
        · exact h.waits t ht
        · exact ⟨program, _, _, _, wake, suspended, .same wake⟩
      · rw [List.length_append, List.length_singleton]
        omega
    · exact ⟨h.increasing, fun t ht => Nat.lt_succ_of_lt (h.below t ht), h.waits, h.room⟩

theorem continued_startNext (frame : Frame) (waiting : Queue Frame) (s : Scheduler) (w : World) :
    Continued s (startNext program owner frame waiting s w).2.1 := by
  unfold startNext
  split
  · exact .refl s
  · refine ⟨Nat.le_succ _, ?_⟩
    dsimp only
    split
    · simp only [List.mem_append, List.mem_singleton]
      rintro t (ht | rfl) old
      · exact ⟨t, ht, rfl⟩
      · exact absurd old (Nat.lt_irrefl _)
    · exact fun t ht _ => ⟨t, ht, rfl⟩

theorem orderly_startAll (supply : Nat) (waiting : Queue Frame) {s : Scheduler} {w : World}
    (h : s.Orderly limit) (hw : w.config.mostTasks = limit) :
    Orderly limit (startAll program owner supply waiting s w).1 ∧
      Continued s (startAll program owner supply waiting s w).1 := by
  induction supply generalizing waiting s w with
  | zero => exact ⟨h, .refl s⟩
  | succ supply ih =>
    rw [startAll]
    split
    · exact ⟨h, .refl s⟩
    · rename_i frame rest _
      have config := (kept_evolves.startNext program owner frame rest s w).config
      obtain ⟨orderly, continued⟩ := ih (startNext program owner frame rest s w).1
        (orderly_startNext program owner h hw frame rest) ((congrArg _ config).trans hw)
      exact ⟨orderly, (continued_startNext program owner frame rest s w).trans continued⟩

theorem orderly_start (frame : Frame) (h : s.Orderly limit) (hw : w.config.mostTasks = limit) :
    Orderly limit (start program owner frame s w).1 ∧
      Continued s (start program owner frame s w).1 :=
  orderly_startAll program owner mostStarts _ h hw

theorem orderly_startEach (starts : List (ObjectId × Frame)) {s : Scheduler} {w : World}
    (h : s.Orderly limit) (hw : w.config.mostTasks = limit) :
    Orderly limit (startEach program starts s w).1 ∧
      Continued s (startEach program starts s w).1 := by
  induction starts generalizing s w with
  | nil => exact ⟨h, .refl s⟩
  | cons p rest ih =>
    have config := (kept_evolves.start program p.1 p.2 s w).config
    obtain ⟨started, continued⟩ := orderly_start program p.1 p.2 h hw
    obtain ⟨orderly, continued'⟩ := ih started ((congrArg _ config).trans hw)
    exact ⟨orderly, continued.trans continued'⟩

/-! ### Launches and ticks -/

theorem orderly_launch (body : List Instruction) (h : s.Orderly limit)
    (hw : w.config.mostTasks = limit) :
    Orderly limit (launch program owner body s w).1 ∧
      Continued s (launch program owner body s w).1 := by
  unfold launch
  split
  · exact orderly_start program owner _ h hw
  · exact ⟨h, .refl s⟩

theorem visit_keeps {t t' : Task} (ht : t.Waits) (w : World)
    (h : (visit program t w).1 = some t') : t'.badge = t.badge ∧ t'.Waits := by
  unfold visit at h
  split at h
  · split at h
    · rename_i wake w' asleep
      rw [Option.some.injEq] at h
      subst h
      have later := t.putOff_wakes w
      rw [asleep] at later
      obtain ⟨program, frames, q, w, asked, drive, put⟩ := ht
      exact ⟨rfl, program, frames, q, w, asked, drive, put.trans later⟩
    · rename_i w' woken
      obtain ⟨⟨frames, wake⟩, suspended, rfl⟩ := Option.map_eq_some_iff.1 h
      exact ⟨rfl, program, t.frames, {}, w', wake, suspended, .same wake⟩
  · contradiction

theorem visitAll_keeps {tasks : List Task} (waits : ∀ t ∈ tasks, t.Waits) (w : World) :
    LeftOf tasks (visitAll program tasks w).1 ∧ ∀ t ∈ (visitAll program tasks w).1, t.Waits := by
  induction tasks generalizing w with
  | nil => exact ⟨leftOf_nil [], by simp [visitAll]⟩
  | cons t rest ih =>
    rw [List.forall_mem_cons] at waits
    obtain ⟨left, waiting⟩ := ih waits.2 (visit program t w).2.2
    simp only [visitAll]
    cases kept : (visit program t w).1 with
    | none => exact ⟨left.trans (List.sublist_cons_self _ _), waiting⟩
    | some t' =>
      obtain ⟨same, waits'⟩ := visit_keeps program waits.1 w kept
      simp only [Option.toList_some, List.singleton_append, List.forall_mem_cons]
      refine ⟨?_, waits', waiting⟩
      simp only [LeftOf, List.map_cons, same]
      exact left.cons_cons _

theorem orderly_tick (h : s.Orderly limit) (hw : w.config.mostTasks = limit) :
    Orderly limit (tick program s w).1 ∧ Continued s (tick program s w).1 := by
  by_cases running : w.running = true
  · obtain ⟨left, waits⟩ := visitAll_keeps program h.waits w
    have config := (kept_evolves.visitAll program s.tasks w).config
    obtain ⟨orderly, continued⟩ := orderly_startEach program (visitAll program s.tasks w).2.1
      (h.thin left waits) ((congrArg _ config).trans hw)
    rw [tick_eq program s running]
    exact ⟨orderly, (Continued.thin left).trans continued⟩
  · rw [tick, if_neg running]
    exact ⟨h.thin (leftOf_nil _) (by simp), .thin (leftOf_nil _)⟩

/-! ### Calls -/

/-- What a scheduler is asked to do, each time in a world of its own. -/
inductive Call
  | launch (program : Program) (owner : ObjectId) (body : List Instruction) (w : World)
  | tick (program : Program) (w : World)
  | cancelOwner (owner : ObjectId)
  | clear

namespace Call

def perform (s : Scheduler) : Call → Scheduler
  | launch program owner body w => (s.launch program owner body w).1
  | tick program w => (s.tick program w).1
  | cancelOwner owner => s.cancelOwner owner
  | clear => s.clear

/-- The worlds of the calls agree on how many tasks there may be. -/
def Allows (limit : Nat) : Call → Prop
  | launch _ _ _ w | tick _ w => w.config.mostTasks = limit
  | cancelOwner _ | clear => True

theorem orderly_perform (h : s.Orderly limit) {call : Call} (allows : call.Allows limit) :
    Orderly limit (call.perform s) ∧ Continued s (call.perform s) := by
  cases call with
  | launch program owner body w => exact orderly_launch program owner body h allows
  | tick program w => exact orderly_tick program h allows
  | cancelOwner owner =>
    have left := leftOf_filter s.tasks (·.owner ≠ owner)
    exact ⟨h.thin left fun t ht => h.waits t (List.mem_filter.1 ht).1, .thin left⟩
  | clear => exact ⟨h.thin (leftOf_nil _) (by simp), .thin (leftOf_nil _)⟩

theorem orderly_performAll (h : s.Orderly limit) {calls : List Call}
    (allow : ∀ call ∈ calls, call.Allows limit) :
    Orderly limit (calls.foldl perform s) ∧ Continued s (calls.foldl perform s) := by
  induction calls generalizing s with
  | nil => exact ⟨h, .refl s⟩
  | cons call rest ih =>
    rw [List.forall_mem_cons] at allow
    obtain ⟨orderly, continued⟩ := orderly_perform h allow.1
    obtain ⟨orderly', continued'⟩ := ih orderly allow.2
    exact ⟨orderly', continued.trans continued'⟩

end Call

theorem orderly_empty (limit : Nat) : Orderly limit {} :=
  ⟨List.Pairwise.nil, by simp, by simp, Nat.zero_le _⟩

/-- From an empty scheduler on, after any calls: the numbers of the live tasks increase and stay
below the next one, every task is suspended with a stack to go on with, and there are no more of
them than allowed. No later task gets a number that was given out before. -/
theorem tasks_stay_orderly (limit : Nat) (earlier later : List Call)
    (allow : ∀ call ∈ earlier ++ later, call.Allows limit) :
    let s : Scheduler := earlier.foldl Call.perform {}
    let s' : Scheduler := later.foldl Call.perform s
    (s'.tasks.map (·.id)).Pairwise (· < ·) ∧
    (∀ t ∈ s'.tasks, t.id < s'.nextId ∧ t.Waits ∧
      1 ≤ t.frames.length ∧ t.frames.length ≤ Task.mostFrames) ∧
    s'.tasks.length ≤ limit ∧
    s.nextId ≤ s'.nextId ∧
    ∀ t' ∈ s'.tasks, t'.id < s.nextId → ∃ t ∈ s.tasks, t.id = t'.id ∧ t.owner = t'.owner := by
  intro s s'
  rw [List.forall_mem_append] at allow
  obtain ⟨orderly, -⟩ := Call.orderly_performAll (orderly_empty limit) allow.1
  obtain ⟨orderly', continued⟩ := Call.orderly_performAll orderly allow.2
  refine ⟨orderly'.increasing, fun t ht => ?_, orderly'.room, continued.nextId_le,
    fun t' ht' old => ?_⟩
  · have waits := orderly'.waits t ht
    obtain ⟨nonempty, low⟩ := waits.frames
    exact ⟨orderly'.below t ht, waits, List.length_pos_iff.2 nonempty, low⟩
  · obtain ⟨t, ht, same⟩ := continued.known t' ht' old
    exact ⟨t, ht, Prod.mk.inj same⟩

section Example

def narrowWorld : World where
  config := { mostTasks := 1 }
  scene := { objects := [{ id := ⟨1⟩ }], nextId := 2 }
  dice := .ofSeed 0
  running := true

def pause : Instruction := ⟨.wait, [], .command, .wait 1, [], []⟩

/-- A body that waits is launched twice, and a third time once the first task is gone. -/
def launches : List Call :=
  [.launch {} ⟨1⟩ [pause] narrowWorld, .launch {} ⟨1⟩ [pause] narrowWorld, .cancelOwner ⟨1⟩,
    .launch {} ⟨1⟩ [pause] narrowWorld]

def pausing (id : Nat) : Scheduler :=
  ⟨[⟨id, ⟨1⟩, [.sequence []], .time (narrowWorld.now + 1)⟩], id + 1⟩

theorem launch_narrow (s : Scheduler) :
    launch {} ⟨1⟩ [pause] s narrowWorld = start {} ⟨1⟩ (.sequence [pause]) s narrowWorld :=
  if_pos rfl

theorem launch_pause (s : Scheduler) (free : s.tasks = []) :
    (launch {} ⟨1⟩ [pause] s narrowWorld).1 = pausing s.nextId := by
  have drive : Task.drive {} ⟨1⟩ [.sequence [pause]] {} narrowWorld =
      ⟨some ([.sequence []], .time (narrowWorld.now + 1)), {}, narrowWorld⟩ :=
    Task.drive_suspend rfl {}
  have next : startNext {} ⟨1⟩ (.sequence [pause]) {} s narrowWorld =
      ({}, pausing s.nextId, narrowWorld) := by
    rw [startNext, if_neg (by rw [free]; decide), drive, free]
    rfl
  rw [launch_narrow, start_eq_first, next, startAll_empty]

theorem launch_full (s : Scheduler) (full : s.tasks.length = 1) :
    (launch {} ⟨1⟩ [pause] s narrowWorld).1 = s := by
  have next : startNext {} ⟨1⟩ (.sequence [pause]) {} s narrowWorld = ({}, s, narrowWorld) := by
    rw [startNext, if_pos (by rw [full]; decide)]
  rw [launch_narrow, start_eq_first, next, startAll_empty]

/-- The second launch is one too many; the third gets a number of its own. -/
theorem launches_stay_orderly :
    let s : Scheduler := (launches.take 2).foldl Call.perform {}
    let s' : Scheduler := (launches.drop 2).foldl Call.perform s
    (∀ call ∈ launches, call.Allows 1) ∧ s = pausing 0 ∧ s' = pausing 1 ∧
    (∀ t ∈ s'.tasks, t.id < s'.nextId ∧ t.Waits ∧
      1 ≤ t.frames.length ∧ t.frames.length ≤ Task.mostFrames) := by
  have allow : ∀ call ∈ launches, call.Allows 1 := by simp [launches, Call.Allows, narrowWorld]
  have orderly := tasks_stay_orderly 1 (launches.take 2) (launches.drop 2) allow
  have first : (launches.take 2).foldl Call.perform {} = pausing 0 := by
    change (launch {} ⟨1⟩ [pause] (launch {} ⟨1⟩ [pause] {} narrowWorld).1 narrowWorld).1 = _
    rw [launch_pause {} rfl]
    exact launch_full (pausing 0) rfl
  have second : (launches.drop 2).foldl Call.perform (pausing 0) = pausing 1 :=
    launch_pause ((pausing 0).cancelOwner ⟨1⟩) rfl
  exact ⟨allow, first, by rw [first, second], orderly.2.1⟩

end Example

end Scheduler
end BlockStage
