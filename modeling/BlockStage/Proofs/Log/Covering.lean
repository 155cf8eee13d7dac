import BlockStage.Proofs.Log.Accounts

/-! Whatever the tasks of a program do between two moments, there is an account of it, and the log
tells what is listed in it. The code that waits for later is the program's again, so one piece of
work can be set behind another. -/

namespace BlockStage

def Log.posted (log : Log) : Account := log.map .happens

theorem Log.posted_append (log log' : Log) : (log ++ log').posted = log.posted ++ log'.posted :=
  List.map_append

/-- From tasks of the program the work leads to tasks of the program, and there is an account of
it. -/
def Works (p : Program) (m : Moment) (listed : Account) (m' : Moment) : Prop :=
  m.1.From p → m'.1.From p ∧ Covered p m.2 listed m'.2

variable {p : Program}

namespace Works

variable {m m' m'' : Moment} {listed listed' : Account}

protected theorem refl (m : Moment) : Works p m [] m := fun tasks => ⟨tasks, .refl m.2⟩

protected theorem trans (first : Works p m listed m') (second : Works p m' listed' m'') :
    Works p m (listed ++ listed') m'' := fun tasks =>
  have ⟨tasks', covered⟩ := first tasks
  have ⟨tasks'', covered'⟩ := second tasks'
  ⟨tasks'', covered.trans covered'⟩

theorem drop {s s' : Scheduler} (fewer : s'.tasks.Sublist s.tasks) (w : World) :
    Works p (s, w) [] (s', w) := fun tasks =>
  ⟨fun t there => tasks t (fewer.subset there), .refl w⟩

theorem aside {w w' : World} (same : w.SameBooks w') (s : Scheduler) :
    Works p (s, w) [] (s, w') := fun tasks => ⟨tasks, .nothing same⟩

end Works

namespace Scheduler

variable (owner : ObjectId)

/-! ### Starts -/

theorem works_startNext {frame : Frame} (fresh : frame.From p) {waiting : Queue Frame}
    (behind : ∀ f ∈ waiting.toList, f.From p) (s : Scheduler) (w : World) :
    Works p (s, w) (s.nextLog p owner frame w).posted (startNext p owner frame waiting s w).2 ∧
      ∀ f ∈ (startNext p owner frame waiting s w).1.toList, f.From p := by
  have all : ∀ f ∈ [frame], f.From p := List.forall_mem_singleton.2 fresh
  have driven : (Task.drive p owner [frame] waiting w).From p := Task.from_drive all behind w
  obtain ⟨suspended, spawned⟩ := driven
  unfold nextLog nextDeeds startNext
  split
  · exact ⟨.refl (s, w), behind⟩
  · refine ⟨fun tasks => ⟨?_, ?_⟩, spawned⟩
    · dsimp only
      cases kept : (Task.drive p owner [frame] waiting w).suspended with
      | none => exact tasks
      | some rest =>
        exact List.forall_mem_append.2
          ⟨tasks, List.forall_mem_singleton.2 (suspended rest.1 rest.2 kept)⟩
    · rw [List.map_cons, Log.posted, List.map_cons, List.map_map]
      exact (Covered.single (x := .happens (.does s.nextId ⟨owner, .starts frame, w⟩)) rfl
        (.of_idle rfl)).trans (Task.covered_drive s.nextId all waiting w)

theorem works_startAll (supply : Nat) {waiting : Queue Frame}
    (fresh : ∀ f ∈ waiting.toList, f.From p) (s : Scheduler) (w : World) :
    Works p (s, w) (startAllLog p owner supply waiting s w).posted
      (startAll p owner supply waiting s w) := by
  induction supply generalizing waiting s w with
  | zero => exact .refl (s, w)
  | succ supply ih =>
    simp only [startAllLog, startAll]
    cases popped : waiting.pop? with
    | none => exact .refl (s, w)
    | some next =>
      rw [Queue.toList_of_pop? popped, List.forall_mem_cons] at fresh
      obtain ⟨first, behind⟩ := works_startNext owner fresh.1 fresh.2 s w
      dsimp only
      rw [Log.posted_append]
      exact first.trans (ih behind _ _)

theorem works_start {frame : Frame} (fresh : frame.From p) (s : Scheduler) (w : World) :
    Works p (s, w) (startLog p owner frame s w).posted (start p owner frame s w) :=
  works_startAll owner mostStarts (by simpa using fresh) s w

theorem works_startEach {starts : List (ObjectId × Frame)} (fresh : ∀ x ∈ starts, x.2.From p)
    (s : Scheduler) (w : World) :
    Works p (s, w) (startEachLog p starts s w).posted (startEach p starts s w) := by
  induction starts generalizing s w with
  | nil => exact .refl (s, w)
  | cons x rest ih =>
    rw [List.forall_mem_cons] at fresh
    rw [startEachLog, Log.posted_append]
    exact (works_start x.1 fresh.1 s w).trans (ih fresh.2 _ _)

theorem works_launch {e : Program.Entry} (there : e ∈ p.entries) (s : Scheduler) (w : World) :
    Works p (s, w) (launchLog p e.owner e.script.body s w).posted
      (launch p e.owner e.script.body s w) := by
  unfold launchLog launch
  split
  · exact works_start e.owner (Frame.from_entry there) s w
  · exact .refl (s, w)

/-! ### Ticks -/

theorem covered_visit {t : Task} (all : ∀ f ∈ t.frames, f.From p) (w : World) :
    Covered p w (visitLog p t w).posted (visit p t w).2.2 ∧
      (∀ t' ∈ (visit p t w).1, ∀ f ∈ t'.frames, f.From p) ∧
      ∀ f ∈ (visit p t w).2.1.toList, f.From p := by
  have nothing : ∀ f ∈ ({} : Queue Frame).toList, f.From p := List.forall_mem_nil _
  have looked : Covered p w ((pollDeeds t w).map fun d => .happens (.does t.id d)) w := by
    unfold pollDeeds
    split
    · split
      · exact .refl w
      · exact .single (x := .happens (.does t.id ⟨t.owner, .checks _, w⟩)) rfl (.of_idle rfl)
    · exact .refl w
  have woken := World.sameBooks_wakes t w
  unfold visitLog visitDeeds visit
  split
  · rw [Log.posted, List.map_map, List.map_append]
    rcases hw : t.wakes w with ⟨_ | _, wake, w'⟩
    · rw [hw] at woken
      refine ⟨looked.trans (.nothing woken), fun t' kept => ?_, nothing⟩
      obtain rfl := Option.some.inj kept
      exact all
    · rw [hw] at woken
      have driven : (Task.drive p t.owner t.frames {} w').From p := Task.from_drive all nothing w'
      obtain ⟨suspended, spawned⟩ := driven
      refine ⟨looked.trans (.prepend woken (Task.covered_drive t.id all {} w')),
        fun t' kept => ?_, spawned⟩
      obtain ⟨⟨frames, wake⟩, halted, rfl⟩ := Option.map_eq_some_iff.1 kept
      exact suspended frames wake halted
  · exact ⟨.refl w, nofun, nothing⟩

theorem covered_visitAll {tasks : List Task} (all : ∀ t ∈ tasks, ∀ f ∈ t.frames, f.From p)
    (w : World) :
    Covered p w (visitAllLog p tasks w).posted (visitAll p tasks w).2.2 ∧
      (∀ t ∈ (visitAll p tasks w).1, ∀ f ∈ t.frames, f.From p) ∧
      ∀ x ∈ (visitAll p tasks w).2.1, x.2.From p := by
  induction tasks generalizing w with
  | nil => exact ⟨.refl w, List.forall_mem_nil _, List.forall_mem_nil _⟩
  | cons t rest ih =>
    rw [List.forall_mem_cons] at all
    obtain ⟨first, kept, spawned⟩ := covered_visit all.1 w
    obtain ⟨others, keptAll, spawnedAll⟩ := ih all.2 (visit p t w).2.2
    rw [visitAllLog, Log.posted_append]
    refine ⟨first.trans others,
      List.forall_mem_append.2 ⟨fun t' h => kept t' (Option.mem_toList.1 h), keptAll⟩,
      List.forall_mem_append.2 ⟨fun x h => ?_, spawnedAll⟩⟩
    obtain ⟨f, listed, rfl⟩ := List.mem_map.1 h
    exact spawned f listed

theorem works_tick (s : Scheduler) (w : World) :
    Works p (s, w) (tickLog p s w).posted (tick p s w) := by
  by_cases running : w.running = true
  · rw [tick_eq p s running, tickLog, if_pos running]
    intro tasks
    obtain ⟨visited, kept, spawned⟩ := covered_visitAll tasks w
    have left : From p { s with tasks := (visitAll p s.tasks w).1 } := kept
    obtain ⟨tasks', started⟩ := works_startEach spawned _ _ left
    rw [Log.posted_append]
    exact ⟨tasks', visited.trans started⟩
  · rw [tick, tickLog, if_neg running, if_neg running]
    exact .drop (List.nil_sublist s.tasks) w

end Scheduler

/-! ### Dispatches and timers -/

namespace Dispatcher.From

variable {d : Dispatcher} (launches : d.From p)

include launches

theorem works_launch {e : Program.Entry} (there : e ∈ p.entries) (s : Scheduler) (w : World) :
    Works p (s, w) (s.launchLog d.program e.owner e.script.body w).posted (d.launch e s w) := by
  rw [launch, launches.program]
  exact Scheduler.works_launch there s w

theorem works_launchAll {entries : List Program.Entry} (there : ∀ e ∈ entries, e ∈ p.entries)
    (s : Scheduler) (w : World) :
    Works p (s, w) (d.launchAllLog entries s w).posted (d.launchAll entries s w).2 := by
  induction entries generalizing s w with
  | nil => exact .refl (s, w)
  | cons e rest ih =>
    rw [List.forall_mem_cons] at there
    simp only [launchAllLog, launchAll]
    split
    · rw [Log.posted_append]
      exact (launches.works_launch there.1 s w).trans (ih there.2 _ _)
    · exact ih there.2 s w

theorem works_dispatch (event : Event) (target : Option ObjectId) (s : Scheduler) (w : World) :
    Works p (s, w) (d.dispatchLog event target s w).posted (d.dispatch event target s w).2 := by
  unfold dispatchLog dispatch
  split
  · refine launches.works_launchAll (fun e listed => ?_) s w
    rw [launches.program] at listed
    exact (List.mem_filter.1 listed).1
  · exact .refl (s, w)

theorem works_fireAll {timers : List Timer} (there : ∀ t ∈ timers, t.entry ∈ p.entries)
    (s : Scheduler) (w : World) :
    Works p (s, w) (d.fireAllLog timers s w).posted (d.fireAll timers s w).2 ∧
      ∀ t ∈ (d.fireAll timers s w).1, t.entry ∈ p.entries := by
  induction timers generalizing s w with
  | nil => exact ⟨.refl (s, w), List.forall_mem_nil _⟩
  | cons t rest ih =>
    rw [List.forall_mem_cons] at there
    simp only [fireAllLog, fireAll]
    split
    · obtain ⟨later, timers⟩ := ih there.2 (d.launch t.entry s w).1 (d.launch t.entry s w).2
      rw [Log.posted_append]
      exact ⟨(launches.works_launch there.1 s w).trans later,
        List.forall_mem_cons.2 ⟨there.1, timers⟩⟩
    · obtain ⟨later, timers⟩ := ih there.2 s w
      exact ⟨later, List.forall_mem_cons.2 ⟨there.1, timers⟩⟩

theorem works_fireTimers (s : Scheduler) (w : World) :
    Works p (s, w) (d.fireLog s w).posted (d.fireTimers s w).2 ∧ (d.fireTimers s w).1.From p := by
  unfold fireLog fireTimers
  split
  · obtain ⟨fired, timers⟩ := launches.works_fireAll launches.timers s w
    exact ⟨fired, ⟨launches.program, timers⟩⟩
  · exact ⟨.refl (s, w), launches⟩

end Dispatcher.From
end BlockStage
