import BlockStage.Proofs.Run.Launching
import BlockStage.Proofs.Run.Roster
import Mathlib.Data.List.Forall2

/-! One tick, task by task. Every live task has one turn, in the world that the turns before it have
left, and the turn removes it, lets it sleep on or drives it once. What the turns spawn is started
behind all the tasks that are left. -/

namespace BlockStage

/-! ### Waking -/

theorem Condition.world_of_holds (condition : Condition) (owner : ObjectId) (w : World) :
    (condition.holds owner w).2 = { w with dice := (condition.holds owner w).2.dice } := by
  cases condition <;> rfl

namespace Task

variable (t : Task) (w : World)

def Awake : Prop :=
  match t.wake with
  | .time seconds => seconds ≤ w.now + clockTolerance
  | .effect id => ∀ r ∈ w.effects.records, r.id ≠ id
  | .poll condition nextCheck =>
    ¬ w.now + clockTolerance < nextCheck ∧ (condition.holds t.owner w).1 = true

/-- The world once the task was asked whether it may go on. Only a poll that is due looks at its
condition. -/
def asked : World :=
  match t.wake with
  | .poll condition nextCheck =>
    if w.now + clockTolerance < nextCheck then w else (condition.holds t.owner w).2
  | _ => w

/-- What the task waits for if it may not go on. Only a poll that was due is put off. -/
def putOff : Wake :=
  match t.wake with
  | .poll condition nextCheck =>
    if w.now + clockTolerance < nextCheck then t.wake
    else .poll condition (w.now + w.config.pollInterval)
  | _ => t.wake

theorem asked_eq : t.asked w = { w with dice := (t.asked w).dice } := by
  unfold asked
  split
  · rename_i condition _ _
    split
    · rfl
    · exact condition.world_of_holds t.owner w
  · rfl

variable {t w}

theorem wakes_of_awake (h : t.Awake w) : t.wakes w = (true, t.wake, t.asked w) := by
  obtain ⟨id, owner, frames, wake⟩ := t
  cases wake with
  | time seconds =>
    have due : seconds ≤ w.now + clockTolerance := h
    simp [wakes, isDue, asked, due]
  | effect id =>
    have ended : ∀ r ∈ w.effects.records, r.id ≠ id := h
    simpa [wakes, asked, Registry.contains] using ended
  | poll condition nextCheck =>
    obtain ⟨due, holds⟩ := h
    simp only [wakes, asked, if_neg due]
    split <;> simp_all

theorem wakes_of_not_awake (h : ¬ t.Awake w) : t.wakes w = (false, t.putOff w, t.asked w) := by
  obtain ⟨id, owner, frames, wake⟩ := t
  cases wake with
  | time seconds =>
    have early : ¬ seconds ≤ w.now + clockTolerance := h
    simp [wakes, isDue, asked, putOff, early]
  | effect id =>
    have goes_on : ¬ ∀ r ∈ w.effects.records, r.id ≠ id := h
    simpa [wakes, asked, putOff, Registry.contains] using goes_on
  | poll condition nextCheck =>
    by_cases early : w.now + clockTolerance < nextCheck
    · simp only [wakes, asked, putOff, if_pos early]
    · have fails : (condition.holds owner w).1 ≠ true := fun holds => h ⟨early, holds⟩
      have now : (condition.holds owner w).2.now = w.now := by rw [condition.world_of_holds]
      have config : (condition.holds owner w).2.config = w.config := by
        rw [condition.world_of_holds]
      simp only [wakes, asked, putOff, if_neg early]
      split <;> simp_all

theorem drive_behind (program : Program) (owner : ObjectId) (frames : List Frame)
    (q : Queue Frame) (w : World) :
    drive program owner frames q w =
      let halt := drive program owner frames {} w
      ⟨halt.suspended, q.pushAll halt.spawned.toList, halt.world⟩ := by
  obtain ⟨spawned, _, _, -, halts⟩ := drive_eq program owner frames w
  have listed : (Queue.pushAll {} spawned).toList = spawned := by
    rw [Queue.toList_pushAll]
    rfl
  rcases halts with ⟨frames', wake, w', -, eq⟩ | ⟨w', -, eq⟩
  · simp only [eq, listed]
  · simp only [eq, listed]

end Task

namespace Scheduler

/-! ### Turns -/

inductive Fate
  | removed
  | asleep
  | driven

structure Turn where
  task : Task
  found : World
  fate : Fate
  /-- What is left of the task, if anything. -/
  kept : Option Task
  spawned : List Frame
  left : World

namespace Turn

def starts (turn : Turn) : List (ObjectId × Frame) := turn.spawned.map (turn.task.owner, ·)

/-- The three ways in which a turn goes. A task whose object is not there is removed, and nothing
happens. A task that may not go on keeps its frames. Any other task is driven once, and is kept if
the drive suspends it. -/
inductive Taken (program : Program) : Turn → Prop
  | removed {t : Task} {w : World} (gone : t.owner ∉ w.scene.ids) :
      Taken program ⟨t, w, .removed, none, [], w⟩
  | asleep {t : Task} {w : World} (there : t.owner ∈ w.scene.ids) (asleep : ¬ t.Awake w) :
      Taken program ⟨t, w, .asleep, some { t with wake := t.putOff w }, [], t.asked w⟩
  | driven {t : Task} {w : World} {halt : Task.Halt} (there : t.owner ∈ w.scene.ids)
      (awake : t.Awake w) (drive : Task.drive program t.owner t.frames {} (t.asked w) = halt) :
      Taken program ⟨t, w, .driven,
        halt.suspended.map fun (frames, wake) => { t with frames, wake },
        halt.spawned.toList, halt.world⟩

variable {program : Program} {turn : Turn}

theorem Taken.of_gone (h : turn.Taken program) (gone : turn.task.owner ∉ turn.found.scene.ids) :
    turn.fate = .removed ∧ turn.kept = none ∧ turn.spawned = [] ∧ turn.left = turn.found := by
  cases h with
  | removed => exact ⟨rfl, rfl, rfl, rfl⟩
  | asleep there => exact absurd there gone
  | driven there => exact absurd there gone

theorem Taken.of_awake (h : turn.Taken program) (there : turn.task.owner ∈ turn.found.scene.ids)
    (awake : turn.task.Awake turn.found) :
    let halt := Task.drive program turn.task.owner turn.task.frames {} (turn.task.asked turn.found)
    turn.fate = .driven ∧
    turn.kept = halt.suspended.map (fun (frames, wake) => { turn.task with frames, wake }) ∧
    turn.spawned = halt.spawned.toList ∧ turn.left = halt.world := by
  cases h with
  | removed gone => exact absurd there gone
  | asleep _ asleep => exact absurd awake asleep
  | driven _ _ drive =>
    subst drive
    exact ⟨rfl, rfl, rfl, rfl⟩

theorem Taken.removed_iff (h : turn.Taken program) :
    turn.fate = .removed ↔ turn.task.owner ∉ turn.found.scene.ids := by
  cases h <;> simp_all

theorem Taken.driven_iff (h : turn.Taken program) :
    turn.fate = .driven ↔
      turn.task.owner ∈ turn.found.scene.ids ∧ turn.task.Awake turn.found := by
  cases h <;> simp_all

theorem Taken.of_not_driven (h : turn.Taken program) (idle : turn.fate ≠ .driven) :
    turn.spawned = [] ∧ turn.left = { turn.found with dice := turn.left.dice } := by
  cases h with
  | removed => exact ⟨rfl, rfl⟩
  | asleep => exact ⟨rfl, Task.asked_eq _ _⟩
  | driven => contradiction

theorem Taken.badge (h : turn.Taken program) {t : Task} (kept : turn.kept = some t) :
    t.badge = turn.task.badge := by
  cases h with
  | removed => contradiction
  | asleep =>
    obtain rfl := Option.some.inj kept
    rfl
  | driven =>
    obtain ⟨_, -, rfl⟩ := Option.map_eq_some_iff.1 kept
    rfl

/-- Turns one after the other, each in the world that the one before it has left. -/
def Chain : World → List Turn → World → Prop
  | w, [], w' => w = w'
  | w, turn :: rest, w' => turn.found = w ∧ Chain turn.left rest w'

end Turn

variable (program : Program)

theorem exists_turn (t : Task) (w : World) : ∃ turn : Turn, turn.task = t ∧ turn.found = w ∧
    turn.Taken program ∧ (visit program t w).1 = turn.kept ∧
    (visit program t w).2.1.toList = turn.spawned ∧ (visit program t w).2.2 = turn.left := by
  unfold visit
  by_cases there : t.owner ∈ w.scene.ids
  · rw [if_pos ((w.scene.contains_iff t.owner).2 there)]
    by_cases awake : t.Awake w
    · rw [Task.wakes_of_awake awake]
      exact ⟨_, rfl, rfl, .driven there awake rfl, rfl, rfl, rfl⟩
    · rw [Task.wakes_of_not_awake awake]
      exact ⟨_, rfl, rfl, .asleep there awake, rfl, rfl, rfl⟩
  · rw [if_neg (there ∘ (w.scene.contains_iff t.owner).1)]
    exact ⟨_, rfl, rfl, .removed there, rfl, rfl, rfl⟩

theorem exists_turns (tasks : List Task) (w : World) : ∃ (turns : List Turn) (w' : World),
    turns.map (·.task) = tasks ∧ Turn.Chain w turns w' ∧ (∀ turn ∈ turns, turn.Taken program) ∧
    visitAll program tasks w = (turns.filterMap (·.kept), turns.flatMap Turn.starts, w') := by
  induction tasks generalizing w with
  | nil => exact ⟨[], w, rfl, rfl, by simp, rfl⟩
  | cons t rest ih =>
    obtain ⟨turn, rfl, rfl, taken, kept, spawned, left⟩ := exists_turn program t w
    obtain ⟨turns, w', rfl, chain, all, visits⟩ := ih turn.left
    refine ⟨turn :: turns, w', rfl, ⟨rfl, chain⟩, List.forall_mem_cons.2 ⟨taken, all⟩, ?_⟩
    simp only [visitAll, kept, spawned, left, visits, List.flatMap_cons, List.filterMap_cons,
      Turn.starts]
    cases turn.kept <;> rfl

theorem leftOf_kept {turns : List Turn} (all : ∀ turn ∈ turns, turn.Taken program) :
    LeftOf (turns.map (·.task)) (turns.filterMap (·.kept)) := by
  induction turns with
  | nil => exact leftOf_nil []
  | cons turn rest ih =>
    rw [List.forall_mem_cons] at all
    have later := ih all.2
    cases kept : turn.kept with
    | none => simpa [LeftOf, kept] using later.trans (List.sublist_cons_self _ _)
    | some t =>
      simp only [LeftOf, List.filterMap_cons, kept, List.map_cons, all.1.badge kept]
      exact later.cons_cons _

/-! ### Starts -/

/-- The tasks that come from the frames that wait for one, until none waits. The first frame is
dropped if there are too many tasks; otherwise it is driven as a task of its own, which is kept if
the drive suspends it, and what it spawns waits behind the other frames. -/
inductive Makes (owner : ObjectId) :
    List Frame → Scheduler → World → List Task → Scheduler → World → Prop
  | done (s : Scheduler) (w : World) : Makes owner [] s w [] s w
  | full {frame : Frame} {waiting : List Frame} {s s' : Scheduler} {w w' : World}
      {made : List Task} (full : w.config.mostTasks ≤ s.tasks.length)
      (later : Makes owner waiting s w made s' w') :
      Makes owner (frame :: waiting) s w made s' w'
  | ended {frame : Frame} {waiting : List Frame} {s s' : Scheduler} {w w₁ w' : World}
      {made : List Task} {spawned : Queue Frame}
      (room : s.tasks.length < w.config.mostTasks)
      (drive : Task.drive program owner [frame] {} w = ⟨none, spawned, w₁⟩)
      (later : Makes owner (waiting ++ spawned.toList) ⟨s.tasks, s.nextId + 1⟩ w₁ made s' w') :
      Makes owner (frame :: waiting) s w made s' w'
  | suspended {frame : Frame} {waiting frames : List Frame} {wake : Wake} {s s' : Scheduler}
      {w w₁ w' : World} {made : List Task} {spawned : Queue Frame}
      (room : s.tasks.length < w.config.mostTasks)
      (drive : Task.drive program owner [frame] {} w = ⟨some (frames, wake), spawned, w₁⟩)
      (later : Makes owner (waiting ++ spawned.toList)
        ⟨s.tasks ++ [⟨s.nextId, owner, frames, wake⟩], s.nextId + 1⟩ w₁ made s' w') :
      Makes owner (frame :: waiting) s w (⟨s.nextId, owner, frames, wake⟩ :: made) s' w'

inductive MakesEach :
    List (ObjectId × Frame) → Scheduler → World → List (List Task) → Scheduler → World → Prop
  | nil (s : Scheduler) (w : World) : MakesEach [] s w [] s w
  | cons {owner : ObjectId} {frame : Frame} {rest : List (ObjectId × Frame)} {s s₁ s' : Scheduler}
      {w w₁ w' : World} {made : List Task} {others : List (List Task)}
      (first : Makes program owner [frame] s w made s₁ w₁)
      (later : MakesEach rest s₁ w₁ others s' w') :
      MakesEach ((owner, frame) :: rest) s w (made :: others) s' w'

/-- Each start returns, within more rounds than any machine gets through. -/
def AllInTime : List (ObjectId × Frame) → Scheduler → World → Prop
  | [], _, _ => True
  | (owner, frame) :: rest, s, w =>
    (∃ n ≤ 0x4000000000000000,
      ((Starting.next program owner)^[n] (starting frame s w)).waiting.toList = []) ∧
    AllInTime rest (start program owner frame s w).1 (start program owner frame s w).2

theorem AllInTime.allReturn {starts : List (ObjectId × Frame)} {s : Scheduler} {w : World}
    (h : AllInTime program starts s w) :
    AllReturn program starts s w (startEach program starts s w).1
      (startEach program starts s w).2 := by
  induction starts generalizing s w with
  | nil => exact .nil s w
  | cons p rest ih =>
    obtain ⟨⟨n, le, done⟩, later⟩ := h
    have later := ih later
    rw [start_eq le done] at later
    rw [startEach, start_eq le done]
    exact .cons n _ rfl done later

/-- Some starts from `s` to `s'`: the tasks that they made stand behind the others, under new
numbers that increase. -/
structure Added (s s' : Scheduler) (made : List Task) : Prop where
  tasks : s'.tasks = s.tasks ++ made
  nextId_le : s.nextId ≤ s'.nextId
  increasing : (made.map (·.id)).Pairwise (· < ·)
  fresh : ∀ t ∈ made, s.nextId ≤ t.id ∧ t.id < s'.nextId

namespace Added

variable {s s' s'' : Scheduler} {made made' : List Task}

protected theorem refl (s : Scheduler) : Added s s [] :=
  ⟨by simp, Nat.le_refl _, List.Pairwise.nil, by simp⟩

protected theorem trans (first : Added s s' made) (second : Added s' s'' made') :
    Added s s'' (made ++ made') where
  tasks := by rw [second.tasks, first.tasks, List.append_assoc]
  nextId_le := Nat.le_trans first.nextId_le second.nextId_le
  increasing := by
    rw [List.map_append, List.pairwise_append]
    refine ⟨first.increasing, second.increasing, ?_⟩
    simp only [List.mem_map]
    rintro _ ⟨t, ht, rfl⟩ _ ⟨t', ht', rfl⟩
    exact Nat.lt_of_lt_of_le (first.fresh t ht).2 (second.fresh t' ht').1
  fresh t ht := by
    rcases List.mem_append.1 ht with ht | ht
    · obtain ⟨low, high⟩ := first.fresh t ht
      exact ⟨low, Nat.lt_of_lt_of_le high second.nextId_le⟩
    · obtain ⟨low, high⟩ := second.fresh t ht
      exact ⟨Nat.le_trans first.nextId_le low, high⟩

theorem skip (s : Scheduler) : Added s ⟨s.tasks, s.nextId + 1⟩ [] :=
  ⟨by simp, Nat.le_succ _, List.Pairwise.nil, by simp⟩

theorem single (s : Scheduler) {t : Task} (id : t.id = s.nextId) :
    Added s ⟨s.tasks ++ [t], s.nextId + 1⟩ [t] :=
  ⟨rfl, Nat.le_succ _, List.pairwise_singleton _ _, by simp [id]⟩

end Added

variable (owner : ObjectId)

theorem exists_made (n : Nat) (x : Starting) :
    let y := (Starting.next program owner)^[n] x
    ∃ made, Added x.scheduler y.scheduler made ∧ (∀ t ∈ made, t.owner = owner) ∧
      (y.waiting.toList = [] →
        Makes program owner x.waiting.toList x.scheduler x.world made y.scheduler y.world) := by
  induction n generalizing x with
  | zero => exact ⟨[], .refl _, by simp, fun empty => empty ▸ .done _ _⟩
  | succ n ih =>
    obtain ⟨waiting, s, w⟩ := x
    rw [Function.iterate_succ_apply]
    cases popped : waiting.pop? with
    | none =>
      have empty := Queue.pop?_eq_none popped
      rw [Starting.next_of_empty empty, Starting.iterate_of_empty empty]
      exact ⟨[], .refl _, by simp, fun _ => empty ▸ .done _ _⟩
    | some first =>
      obtain ⟨frame, waiting'⟩ := first
      rw [Starting.next_of_pop? popped, Queue.toList_of_pop? popped]
      by_cases full : w.config.mostTasks ≤ s.tasks.length
      · simp only [startNext, if_pos full]
        obtain ⟨made, added, owners, makes⟩ := ih ⟨waiting', s, w⟩
        exact ⟨made, added, owners, fun empty => .full full (makes empty)⟩
      · simp only [startNext, if_neg full]
        -- The drive starts with the frames that wait already; `Makes` takes it on its own.
        rw [Task.drive_behind]
        have room := Nat.lt_of_not_le full
        rcases drive : Task.drive program owner [frame] {} w with ⟨halted, spawned, w₁⟩
        have listed : (waiting'.pushAll spawned.toList).toList =
            waiting'.toList ++ spawned.toList := Queue.toList_pushAll ..
        cases halted with
        | none =>
          obtain ⟨made, added, owners, makes⟩ :=
            ih ⟨waiting'.pushAll spawned.toList, ⟨s.tasks, s.nextId + 1⟩, w₁⟩
          exact ⟨made, (Added.skip s).trans added, owners,
            fun empty => .ended room drive (listed ▸ makes empty)⟩
        | some left =>
          obtain ⟨made, added, owners, makes⟩ := ih ⟨waiting'.pushAll spawned.toList,
            ⟨s.tasks ++ [⟨s.nextId, owner, left.1, left.2⟩], s.nextId + 1⟩, w₁⟩
          exact ⟨_, (Added.single s rfl).trans added, List.forall_mem_cons.2 ⟨rfl, owners⟩,
            fun empty => .suspended room drive (listed ▸ makes empty)⟩

/-- A start adds tasks of its owner: if it returns in time, those of its frame and of all that this
spawns. -/
theorem exists_made_start (frame : Frame) (s : Scheduler) (w : World) :
    ∃ made, Added s (start program owner frame s w).1 made ∧ (∀ t ∈ made, t.owner = owner) ∧
      ((∃ n ≤ mostStarts,
          ((Starting.next program owner)^[n] (starting frame s w)).waiting.toList = []) →
        Makes program owner [frame] s w made (start program owner frame s w).1
          (start program owner frame s w).2) := by
  obtain ⟨made, added, owners, makes⟩ := exists_made program owner mostStarts (starting frame s w)
  -- So many rounds must not be unfolded, so their outcome gets a name.
  obtain ⟨y, rounds⟩ : ∃ y, y = (Starting.next program owner)^[mostStarts] (starting frame s w) :=
    ⟨_, rfl⟩
  have outcome : start program owner frame s w = (y.scheduler, y.world) := by
    rw [rounds]
    exact Starting.startAll_eq_iterate ..
  rw [← rounds] at added makes
  rw [outcome]
  refine ⟨made, added, owners, fun ⟨n, le, done⟩ => makes ?_⟩
  obtain ⟨k, more⟩ := Nat.exists_eq_add_of_le' le
  rw [rounds, more, Function.iterate_add_apply, Starting.iterate_of_empty done, done]

theorem exists_madeEach (starts : List (ObjectId × Frame)) (s : Scheduler) (w : World) :
    ∃ made : List (List Task), Added s (startEach program starts s w).1 made.flatten ∧
      List.Forall₂ (fun p group => ∀ t ∈ group, t.owner = p.1) starts made ∧
      (AllInTime program starts s w → MakesEach program starts s w made
        (startEach program starts s w).1 (startEach program starts s w).2) := by
  induction starts generalizing s w with
  | nil => exact ⟨[], .refl s, .nil, fun _ => .nil s w⟩
  | cons p rest ih =>
    obtain ⟨made, added, owners, makes⟩ := exists_made_start program p.1 p.2 s w
    obtain ⟨others, later, groups, each⟩ :=
      ih (start program p.1 p.2 s w).1 (start program p.1 p.2 s w).2
    exact ⟨made :: others, added.trans later, .cons owners groups,
      fun inTime => .cons (makes inTime.1) (each inTime.2)⟩

variable {program owner} {s s' : Scheduler} {w w' : World}

/-! ### Numbers -/

theorem Numbered.added (h : s.Numbered) {made : List Task} (added : Added s s' made) : s'.Numbered where
  increasing := by
    rw [added.tasks, List.map_append, List.pairwise_append]
    refine ⟨h.increasing, added.increasing, ?_⟩
    simp only [List.mem_map]
    rintro _ ⟨t, ht, rfl⟩ _ ⟨t', ht', rfl⟩
    exact Nat.lt_of_lt_of_le (h.below t ht) (added.fresh t' ht').1
  below t ht := by
    rw [added.tasks] at ht
    rcases List.mem_append.1 ht with ht | ht
    · exact Nat.lt_of_lt_of_le (h.below t ht) added.nextId_le
    · exact (added.fresh t ht).2

/-- A tick is a chain of turns, and then the starts of what they spawned. -/
theorem exists_tick (program : Program) (s : Scheduler) {w : World} (running : w.running = true) :
    ∃ (turns : List Turn) (w₁ : World), turns.map (·.task) = s.tasks ∧ Turn.Chain w turns w₁ ∧
      (∀ turn ∈ turns, turn.Taken program) ∧
      tick program s w = startEach program (turns.flatMap Turn.starts)
        ⟨turns.filterMap (·.kept), s.nextId⟩ w₁ := by
  obtain ⟨turns, w₁, tasks, chain, all, visits⟩ := exists_turns program s.tasks w
  refine ⟨turns, w₁, tasks, chain, all, ?_⟩
  rw [tick_eq program s running, visits]

theorem Numbered.tick (h : s.Numbered) (program : Program) (w : World) :
    Numbered (tick program s w).1 := by
  by_cases running : w.running = true
  · obtain ⟨turns, w₁, tasks, -, all, ticked⟩ := exists_tick program s running
    obtain ⟨made, added, -⟩ := exists_madeEach program (turns.flatMap Turn.starts)
      ⟨turns.filterMap (·.kept), s.nextId⟩ w₁
    have left := leftOf_kept program all
    rw [tasks] at left
    rw [ticked]
    exact (h.thin left).added added
  · rw [Scheduler.tick, if_neg running]
    exact h.thin (leftOf_nil _)

theorem Numbered.launch (h : s.Numbered) (program : Program) (owner : ObjectId)
    (body : List Instruction) (w : World) : Numbered (launch program owner body s w).1 := by
  unfold Scheduler.launch
  split
  · obtain ⟨made, added, -⟩ := exists_made_start program owner (.sequence body) s w
    exact h.added added
  · exact h

theorem Numbered.perform (h : s.Numbered) (call : Call) : Numbered (call.perform s) := by
  cases call with
  | launch program owner body w => exact h.launch program owner body w
  | tick program w => exact h.tick program w
  | cancelOwner owner => exact h.thin (leftOf_filter s.tasks (·.owner ≠ owner))
  | clear => exact h.thin (leftOf_nil _)

theorem Numbered.performAll (h : s.Numbered) (calls : List Call) :
    Numbered (calls.foldl Call.perform s) := by
  induction calls generalizing s with
  | nil => exact h
  | cons call rest ih => exact ih (h.perform call)

theorem numbered_empty : Numbered {} := ⟨List.Pairwise.nil, by simp⟩

/-- A tick in any reachable state. Each live task has one turn, in the order of the numbers and in
the world that the turns before it have left. It is removed if its object is not there, driven once
if the object is there and the wait is over, and left to sleep otherwise. What is left of the tasks
stays in order, and behind it stand the new tasks, those of the first spawned frame first: if all
their starts return in time, these are all that came from the frames and from what these spawned. -/
theorem tick_turn_by_turn (calls : List Call) (program : Program) {w : World}
    (running : w.running = true) :
    let s : Scheduler := calls.foldl Call.perform {}
    let after := tick program s w
    ∃ (turns : List Turn) (w₁ : World) (made : List (List Task)),
      turns.map (·.task) = s.tasks ∧ (s.tasks.map (·.id)).Pairwise (· < ·) ∧
      Turn.Chain w turns w₁ ∧
      (∀ turn ∈ turns, turn.Taken program ∧
        (turn.fate = .removed ↔ turn.task.owner ∉ turn.found.scene.ids) ∧
        (turn.fate = .driven ↔
          turn.task.owner ∈ turn.found.scene.ids ∧ turn.task.Awake turn.found) ∧
        (turn.fate ≠ .driven →
          turn.spawned = [] ∧ turn.left = { turn.found with dice := turn.left.dice }) ∧
        ∀ t, turn.kept = some t → t.id = turn.task.id ∧ t.owner = turn.task.owner) ∧
      after.1.tasks = turns.filterMap (·.kept) ++ made.flatten ∧
      (after.1.tasks.map (·.id)).Pairwise (· < ·) ∧
      (∀ t ∈ made.flatten, s.nextId ≤ t.id) ∧
      List.Forall₂ (fun p group => ∀ t ∈ group, t.owner = p.1) (turns.flatMap Turn.starts) made ∧
      let starts := turns.flatMap Turn.starts
      let kept : Scheduler := ⟨turns.filterMap (·.kept), s.nextId⟩
      after = startEach program starts kept w₁ ∧
      (AllInTime program starts kept w₁ →
        AllReturn program starts kept w₁ after.1 after.2 ∧
        MakesEach program starts kept w₁ made after.1 after.2) := by
  intro s after
  have numbered : s.Numbered := numbered_empty.performAll calls
  obtain ⟨turns, w₁, tasks, chain, all, ticked⟩ := exists_tick program s running
  obtain ⟨made, added, groups, makes⟩ := exists_madeEach program (turns.flatMap Turn.starts)
    ⟨turns.filterMap (·.kept), s.nextId⟩ w₁
  have increasing := (numbered.tick program w).increasing
  rw [← ticked] at added makes
  refine ⟨turns, w₁, made, tasks, numbered.increasing, chain, fun turn ht => ?_, added.tasks,
    increasing, fun t ht => (added.fresh t ht).1, groups, ticked, fun inTime => ⟨?_, makes inTime⟩⟩
  · have taken := all turn ht
    exact ⟨taken, taken.removed_iff, taken.driven_iff, taken.of_not_driven,
      fun t kept => Prod.mk.inj (taken.badge kept)⟩
  · have returns := inTime.allReturn
    rwa [← ticked] at returns

section Example

def wideWorld : World := { narrowWorld with config := {} }

def vanish : Instruction := ⟨.destroy, [], .command, .destroy, [], []⟩

/-- Two tasks of one object, both in their pause. After it the first one destroys the object. -/
def twoPauses : List Call :=
  [.launch {} ⟨1⟩ [pause, vanish] wideWorld, .launch {} ⟨1⟩ [pause, pause] wideWorld]

theorem launch_pausing (rest : List Instruction) {s : Scheduler}
    (room : ¬ wideWorld.config.mostTasks ≤ s.tasks.length) :
    (launch {} ⟨1⟩ (pause :: rest) s wideWorld).1 =
      ⟨s.tasks ++ [⟨s.nextId, ⟨1⟩, [.sequence rest], .time (0 + 1)⟩], s.nextId + 1⟩ := by
  have drive : Task.drive {} ⟨1⟩ [.sequence (pause :: rest)] {} wideWorld =
      ⟨some ([.sequence rest], .time (0 + 1)), {}, wideWorld⟩ := Task.drive_suspend rfl {}
  have open_run : (wideWorld.running && !(pause :: rest).isEmpty &&
      wideWorld.scene.contains ⟨1⟩) = true := rfl
  rw [launch, if_pos open_run, start_eq_first, startNext, if_neg room, drive]
  exact congrArg Prod.fst (startAll_empty _ _ _ _ _)

def pausesOver : World := { wideWorld with now := 1 }

theorem drive_vanish (q : Queue Frame) : Task.drive {} ⟨1⟩ [.sequence [vanish]] q pausesOver =
    ⟨none, q, pausesOver.removeObject ⟨1⟩⟩ :=
  Task.drive_finish rfl q

/-- Both pauses are over at the same time. The first task takes the object away before the turn of
the second, which is removed without another step. -/
theorem second_pause_removed :
    let s : Scheduler := twoPauses.foldl Call.perform {}
    pausesOver.running = true ∧ s.tasks.map (·.wake) = [.time (0 + 1), .time (0 + 1)] ∧
    (∃ turns w₁, turns.map (·.task) = s.tasks ∧ Turn.Chain pausesOver turns w₁ ∧
      turns.map (·.fate) = [.driven, .removed]) ∧
    (tick {} s pausesOver).1.tasks = [] := by
  intro s
  have tasks : s.tasks = [⟨0, ⟨1⟩, [.sequence [vanish]], .time (0 + 1)⟩,
      ⟨1, ⟨1⟩, [.sequence [pause]], .time (0 + 1)⟩] := by
    change (launch {} ⟨1⟩ [pause, pause]
      (launch {} ⟨1⟩ [pause, vanish] {} wideWorld).1 wideWorld).1.tasks = _
    rw [launch_pausing [vanish] (by decide), launch_pausing [pause] (by decide)]
    rfl
  obtain ⟨turns, w₁, made, visited, -, chain, all, after, -, -, groups, -⟩ :=
    tick_turn_by_turn twoPauses {} (w := pausesOver) rfl
  have asked := visited
  rw [tasks] at visited
  obtain ⟨first, others, rfl, task, visited⟩ := List.map_eq_cons_iff.1 visited
  obtain ⟨second, others, rfl, task', visited⟩ := List.map_eq_cons_iff.1 visited
  obtain rfl := List.map_eq_nil_iff.1 visited
  obtain ⟨found, found', ended⟩ := chain
  simp only [List.forall_mem_cons] at all
  obtain ⟨⟨taken, -⟩, ⟨taken', -⟩, -⟩ := all
  have due : (0 + 1 : Float) ≤ 1 + Task.clockTolerance := by decide +kernel
  obtain ⟨driven, kept, spawned, left⟩ := taken.of_awake (by rw [task, found]; decide)
    (by rw [task, found]; exact due)
  have unasked : first.task.asked pausesOver = pausesOver := by
    rw [task]
    rfl
  rw [found, unasked, task, drive_vanish] at kept spawned left
  obtain ⟨removed, kept', spawned', -⟩ := taken'.of_gone (by rw [task', found', left]; decide)
  have nothing : List.flatMap Turn.starts [first, second] = [] := by
    simp [Turn.starts, spawned, spawned', Queue.toList]
  rw [nothing, List.forall₂_nil_left_iff] at groups
  refine ⟨rfl, by rw [tasks]; rfl, ⟨_, w₁, asked, ⟨found, found', ended⟩, ?_⟩, ?_⟩
  · simp [driven, removed]
  · exact after.trans (by simp [kept, kept', groups])

end Example

end Scheduler
end BlockStage
