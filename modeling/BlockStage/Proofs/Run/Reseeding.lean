import BlockStage.Proofs.Run.Frames
import BlockStage.Proofs.Run.Turns

/-! What chance has no part in. Tasks without conditions on chance and without particles do the same
under any seed, and leave the dice alone. -/

namespace BlockStage

def Command.Diceless : Command → Prop
  | particles _ _ => False
  | waitUntil condition | ifThen condition | ifElse condition | whileHolds condition =>
    condition.Certain
  | _ => True

/-- The instruction is somewhere in the code. -/
inductive Nested : List Instruction → Instruction → Prop
  | here {code : List Instruction} {i : Instruction} (h : i ∈ code) : Nested code i
  | child {code : List Instruction} {i j : Instruction} (h : i ∈ code)
      (inside : Nested i.children j) : Nested code j
  | elseChild {code : List Instruction} {i j : Instruction} (h : i ∈ code)
      (inside : Nested i.elseChildren j) : Nested code j

def Diceless (code : List Instruction) : Prop := ∀ i, Nested code i → i.command.Diceless

theorem Nested.of_tail {i j : Instruction} {rest : List Instruction} (h : Nested rest j) :
    Nested (i :: rest) j := by
  cases h with
  | here h => exact .here (List.mem_cons_of_mem i h)
  | child h inside => exact .child (List.mem_cons_of_mem i h) inside
  | elseChild h inside => exact .elseChild (List.mem_cons_of_mem i h) inside

namespace Diceless

variable {code : List Instruction} {i : Instruction}

theorem command (diceless : Diceless code) (h : i ∈ code) : i.command.Diceless :=
  diceless i (.here h)

theorem children (diceless : Diceless code) (h : i ∈ code) : Diceless i.children :=
  fun j inside => diceless j (.child h inside)

theorem elseChildren (diceless : Diceless code) (h : i ∈ code) : Diceless i.elseChildren :=
  fun j inside => diceless j (.elseChild h inside)

end Diceless

def Program.Diceless (p : Program) : Prop := ∀ e ∈ p.entries, BlockStage.Diceless e.script.body

theorem Program.Diceless.definition {p : Program} (diceless : p.Diceless) {owner : ObjectId}
    {name : String} {script : Script} (h : p.definition? owner name = some script) :
    BlockStage.Diceless script.body := by
  obtain ⟨e, found, rfl⟩ := Option.map_eq_some_iff.1 h
  exact diceless e (List.mem_of_find?_eq_some found)

def Wake.Diceless : Wake → Prop
  | poll condition _ => condition.Certain
  | _ => True

namespace Frame

/-- No draw decides on the next pass. -/
def Sure : Frame → Prop
  | whileHolds condition _ _ => condition.Certain
  | _ => True

structure Diceless (f : Frame) : Prop where
  sure : f.Sure
  code : BlockStage.Diceless f.code

theorem diceless_sequence {code : List Instruction} (h : BlockStage.Diceless code) :
    Diceless (.sequence code) := ⟨trivial, h⟩

theorem diceless_of_framesFor {program : Program} (diceless : program.Diceless)
    {owner : ObjectId} {i : Instruction} {rest : List Instruction} {f : Frame}
    (h : Diceless (.sequence (i :: rest))) (entered : f ∈ i.framesFor owner program) :
    f.Diceless := by
  have certain := h.code.command List.mem_cons_self
  have inside := h.code.children List.mem_cons_self
  cases Instruction.enters_of_mem entered with
  | body => exact ⟨trivial, inside⟩
  | otherwise => exact ⟨trivial, h.code.elseChildren List.mem_cons_self⟩
  | definition found => exact ⟨trivial, diceless.definition found⟩
  | repeatTimes => exact ⟨trivial, inside⟩
  | whileHolds command =>
    rw [command] at certain
    exact ⟨certain, inside⟩
  | forEach => exact ⟨trivial, inside⟩

theorem handedOn_diceless {program : Program} (diceless : program.Diceless) (owner : ObjectId) :
    HandedOn program owner Diceless where
  loop {f} := by
    have sure : f.loop.Sure ↔ f.Sure := by cases f <;> rfl
    have code : f.loop.code = f.code := by cases f <;> rfl
    exact ⟨fun h => ⟨sure.1 h.sure, code ▸ h.code⟩, fun h => ⟨sure.2 h.sure, code ▸ h.code⟩⟩
  body h := ⟨trivial, h.code⟩
  tail h := ⟨trivial, fun j inside => h.code j inside.of_tail⟩
  enter h entered := diceless_of_framesFor diceless h entered

end Frame

/-! ### Another seed -/

def World.reseed (seed : UInt64) (w : World) : World :=
  { w with config := { w.config with seed }, dice := .ofSeed seed }

variable {seed : UInt64} {program : Program} {owner : ObjectId}

namespace World

variable (w : World)

@[simp] theorem reseed_scene : (w.reseed seed).scene = w.scene := rfl

@[simp] theorem reseed_now : (w.reseed seed).now = w.now := rfl

@[simp] theorem reseed_vars : (w.reseed seed).vars = w.vars := rfl

theorem reseed_holds {condition : Condition} (certain : condition.Certain) :
    condition.holds owner (w.reseed seed) =
      ((condition.holds owner w).1, (condition.holds owner w).2.reseed seed) := by
  cases condition with
  | chance percent => exact certain.elim
  | _ => rfl

theorem reseed_glide (target : Vec3) (seconds : Float) (relative : Bool) :
    (w.reseed seed).glide owner target seconds relative =
      ((w.glide owner target seconds relative).1,
        (w.glide owner target seconds relative).2.reseed seed) := by
  simp only [glide, reseed_scene]
  cases w.scene.find? owner with
  | none => rfl
  | some o =>
    dsimp only
    split <;> rfl

theorem reseed_drain (name : String) (amount : Float) (event : Event) :
    (w.reseed seed).drain name amount event = (w.drain name amount event).reseed seed := by
  have changed : (w.reseed seed).changeVar name (-amount) =
      (w.changeVar name (-amount)).reseed seed := rfl
  simp only [drain, changed, reseed_vars, apply_ite (reseed seed)]
  rfl

theorem reseed_removeObject (id : ObjectId) :
    (w.reseed seed).removeObject id = (w.removeObject id).reseed seed := by
  simp only [removeObject, reseed_scene, apply_ite (reseed seed)]
  rfl

end World

theorem Instruction.execute_reseed (i : Instruction) (w : World) (diceless : i.command.Diceless) :
    i.execute owner program (w.reseed seed) =
      ((i.execute owner program w).1, (i.execute owner program w).2.reseed seed) := by
  obtain ⟨opcode, arguments, kind, command, children, elseChildren⟩ := i
  cases command with
  | particles => exact diceless.elim
  | glide target seconds relative => exact w.reseed_glide target seconds relative
  | setSpawnPoint =>
    simp only [execute, World.spawnAbove, World.reseed_scene]
    cases w.scene.find? owner <;> rfl
  | say text seconds =>
    simp only [execute, World.speak, World.reseed_scene]
    cases w.scene.find? owner <;> rfl
  | startEffect plan =>
    simp only [execute, World.startEffect, World.reseed_scene]
    cases w.scene.find? owner <;> rfl
  | gravity =>
    simp only [execute, World.startGravity, World.reseed_scene]
    cases w.scene.find? owner with
    | none => rfl
    | some o =>
      dsimp only
      split <;> rfl
  | duplicate =>
    simp only [execute, World.duplicate, World.reseed_scene]
    cases w.scene.duplicate? owner <;> rfl
  | waitUntil condition | ifThen condition | ifElse condition =>
    simp only [execute, w.reseed_holds diceless]
    rcases condition.holds owner w with ⟨_ | _, w'⟩ <;> rfl
  | repeatTimes count =>
    simp only [execute]
    split <;> rfl
  | call name =>
    simp only [execute]
    split <;> rfl
  | destroy => exact congrArg (Flow.stop, ·) (w.reseed_removeObject owner)
  | damage amount => exact congrArg (Flow.next, ·) (w.reseed_drain "health" amount .healthZero)
  | loseLife => exact congrArg (Flow.next, ·) (w.reseed_drain "lives" 1 .livesZero)
  | _ => rfl

theorem Frame.advance_reseed {top : Frame} (w : World) (sure : top.Sure) :
    top.advance owner (w.reseed seed) =
      ((top.advance owner w).1, (top.advance owner w).2.reseed seed) := by
  cases top with
  | sequence rest => cases rest <;> rfl
  | repeatTimes body left => cases left <;> rfl
  | forever body resting => cases resting <;> rfl
  | whileHolds condition body resting =>
    cases resting with
    | true => rfl
    | false =>
      simp only [advance, w.reseed_holds sure]
      rcases condition.holds owner w with ⟨_ | _, w'⟩ <;> rfl
  | forEach counter next last body => cases next <;> rfl

/-! ### Tasks -/

namespace Task

theorem unnoticed_reseed (diceless : program.Diceless) (owner : ObjectId) (seed : UInt64) :
    Unnoticed program owner Frame.Diceless (·.reseed seed) where
  toHandedOn := Frame.handedOn_diceless diceless owner
  running _ := rfl
  advance w h := Frame.advance_reseed w h.sure
  execute {i _} w h := i.execute_reseed w (h.code.command List.mem_cons_self)

structure Diceless (t : Task) : Prop where
  frames : ∀ f ∈ t.frames, f.Diceless
  wake : t.wake.Diceless

def Halt.Diceless (h : Halt) : Prop :=
  (∀ frames wake, h.suspended = some (frames, wake) → (∀ f ∈ frames, f.Diceless) ∧ wake.Diceless) ∧
    ∀ f ∈ h.spawned.toList, f.Diceless

variable {frames frames' : List Frame} {w w' : World} (seed owner)

theorem diceless_of_spawn {frame : Frame} (all : ∀ f ∈ frames, f.Diceless)
    (h : step program owner frames w = (.spawn frames' frame, w')) : frame.Diceless := by
  obtain ⟨i, rest, below, rfl, -, -, -, rfl, -⟩ := step_spawn h
  exact ⟨trivial, (all _ List.mem_cons_self).code.children List.mem_cons_self⟩

theorem diceless_of_suspend {wake : Wake} (all : ∀ f ∈ frames, f.Diceless)
    (h : step program owner frames w = (.suspend frames' wake, w')) : wake.Diceless := by
  cases steps_of_step h with
  | rest _ advance =>
    rw [Frame.wake_of_advance_rest advance]
    trivial
  | @suspend i rest _ _ _ _ _ execute =>
    have certain : i.command.Diceless := (all _ List.mem_cons_self).code.command List.mem_cons_self
    cases Instruction.asks_of_execute execute with
    | poll command => rwa [command] at certain
    | wait => trivial
    | glide => trivial

theorem diceless_drive (diceless : program.Diceless) (all : ∀ f ∈ frames, f.Diceless)
    {q : Queue Frame} (waiting : ∀ f ∈ q.toList, f.Diceless) (w : World) :
    (drive program owner frames q w).Diceless := by
  have handed := Frame.handedOn_diceless diceless owner
  fun_induction drive program owner frames q w with
  | case1 frames q w frames' w' move ih => exact ih (handed.of_step all move) waiting
  | case2 frames q w frames' frame w' move ih =>
    refine ih (handed.of_step all move) fun f h => ?_
    rw [Queue.toList_push] at h
    rcases List.mem_append.1 h with h | h
    · exact waiting f h
    · rw [List.mem_singleton.1 h]
      exact diceless_of_spawn owner all move
  | case3 frames q w frames' wake w' move =>
    refine ⟨fun _ _ h => ?_, waiting⟩
    obtain ⟨rfl, rfl⟩ := Prod.mk.inj (Option.some.inj h)
    exact ⟨handed.of_step all move, diceless_of_suspend owner all move⟩
  | case4 frames q w w' move => exact ⟨fun _ _ h => by contradiction, waiting⟩

theorem wakes_reseed {t : Task} (diceless : t.Diceless) (w : World) :
    t.wakes (w.reseed seed) = ((t.wakes w).1, (t.wakes w).2.1, (t.wakes w).2.2.reseed seed) ∧
      (t.wakes w).2.1.Diceless := by
  obtain ⟨number, owner, frames, wake⟩ := t
  obtain ⟨-, certain⟩ := diceless
  cases wake with
  | time seconds => exact ⟨rfl, trivial⟩
  | effect record => exact ⟨rfl, trivial⟩
  | poll condition nextCheck =>
    simp only [wakes, World.reseed_now, w.reseed_holds certain]
    split
    · exact ⟨rfl, certain⟩
    · rcases condition.holds owner w with ⟨_ | _, w'⟩ <;> exact ⟨rfl, certain⟩

end Task

/-! ### All tasks -/

namespace Scheduler

def Diceless (s : Scheduler) : Prop := ∀ t ∈ s.tasks, t.Diceless

variable {s : Scheduler} {w : World} {frame : Frame} {waiting : Queue Frame} (seed owner)

theorem startNext_reseed (sure : program.Diceless) (h : s.Diceless) (fresh : frame.Diceless)
    (behind : ∀ f ∈ waiting.toList, f.Diceless) (w : World) :
    let next := startNext program owner frame waiting s w
    startNext program owner frame waiting s (w.reseed seed) =
        (next.1, next.2.1, next.2.2.reseed seed) ∧
      (∀ f ∈ next.1.toList, f.Diceless) ∧ next.2.1.Diceless := by
  have all : ∀ f ∈ [frame], f.Diceless := List.forall_mem_singleton.2 fresh
  have driven := Task.diceless_drive owner sure all behind w
  have limit : (w.reseed seed).config.mostTasks = w.config.mostTasks := rfl
  by_cases full : w.config.mostTasks ≤ s.tasks.length
  · rw [startNext, if_pos full, startNext, if_pos (limit ▸ full)]
    exact ⟨rfl, behind, h⟩
  · rw [startNext, if_neg full, startNext, if_neg (limit ▸ full),
      (Task.unnoticed_reseed sure owner seed).drive all]
    refine ⟨rfl, driven.2, ?_⟩
    dsimp only
    cases suspended : (Task.drive program owner [frame] waiting w).suspended with
    | none => exact h
    | some rest =>
      obtain ⟨frames, wake⟩ := driven.1 rest.1 rest.2 suspended
      have kept : Task.Diceless ⟨s.nextId, owner, rest.1, rest.2⟩ := ⟨frames, wake⟩
      exact List.forall_mem_append.2 ⟨h, List.forall_mem_singleton.2 kept⟩

theorem startAll_reseed (sure : program.Diceless) (supply : Nat) (h : s.Diceless)
    (behind : ∀ f ∈ waiting.toList, f.Diceless) (w : World) :
    let started := startAll program owner supply waiting s w
    startAll program owner supply waiting s (w.reseed seed) =
      (started.1, started.2.reseed seed) ∧ started.1.Diceless := by
  induction supply generalizing waiting s w with
  | zero => exact ⟨rfl, h⟩
  | succ supply ih =>
    cases popped : waiting.pop? with
    | none =>
      refine ⟨by simp only [startAll, popped], ?_⟩
      simpa only [startAll, popped] using h
    | some next =>
      rw [Queue.toList_of_pop? popped, List.forall_mem_cons] at behind
      obtain ⟨first, rest, tasks⟩ :=
        startNext_reseed seed owner sure h behind.1 behind.2 w
      simp only [startAll, popped, first]
      exact ih tasks rest _

theorem start_reseed (sure : program.Diceless) (h : s.Diceless) (fresh : frame.Diceless)
    (w : World) :
    let started := start program owner frame s w
    start program owner frame s (w.reseed seed) = (started.1, started.2.reseed seed) ∧
      started.1.Diceless :=
  startAll_reseed seed owner sure mostStarts h (by simpa using fresh) w

theorem startEach_reseed (sure : program.Diceless) (h : s.Diceless)
    {starts : List (ObjectId × Frame)} (fresh : ∀ p ∈ starts, p.2.Diceless) (w : World) :
    let started := startEach program starts s w
    startEach program starts s (w.reseed seed) = (started.1, started.2.reseed seed) ∧
      started.1.Diceless := by
  induction starts generalizing s w with
  | nil => exact ⟨rfl, h⟩
  | cons p rest ih =>
    rw [List.forall_mem_cons] at fresh
    obtain ⟨first, tasks⟩ := start_reseed seed p.1 sure h fresh.1 w
    simp only [startEach, first]
    exact ih tasks fresh.2 _

theorem launch_reseed (sure : program.Diceless) (h : s.Diceless) {body : List Instruction}
    (diceless : BlockStage.Diceless body) (w : World) :
    let launched := launch program owner body s w
    launch program owner body s (w.reseed seed) = (launched.1, launched.2.reseed seed) ∧
      launched.1.Diceless := by
  by_cases ready : (w.running && !body.isEmpty && w.scene.contains owner) = true
  · rw [launch, if_pos ready, launch, if_pos (by exact ready)]
    exact start_reseed seed owner sure h (Frame.diceless_sequence diceless) w
  · rw [launch, if_neg ready, launch, if_neg (by exact ready)]
    exact ⟨rfl, h⟩

theorem visit_reseed (sure : program.Diceless) {t : Task} (h : t.Diceless) (w : World) :
    let visited := visit program t w
    visit program t (w.reseed seed) = (visited.1, visited.2.1, visited.2.2.reseed seed) ∧
      (∀ t' ∈ visited.1, t'.Diceless) ∧ ∀ f ∈ visited.2.1.toList, f.Diceless := by
  have nothing : ∀ f ∈ ({} : Queue Frame).toList, f.Diceless := List.forall_mem_nil _
  obtain ⟨woken, certain⟩ := Task.wakes_reseed seed h w
  by_cases there : w.scene.contains t.owner = true
  · rw [visit, if_pos there, visit, if_pos (by exact there), woken]
    generalize t.wakes w = outcome at certain ⊢
    obtain ⟨_ | _, wake, w'⟩ := outcome
    · refine ⟨rfl, fun t' kept => ?_, nothing⟩
      obtain rfl := Option.some.inj kept
      exact ⟨h.frames, certain⟩
    · have driven := Task.diceless_drive t.owner sure h.frames nothing w'
      dsimp only
      rw [(Task.unnoticed_reseed sure t.owner seed).drive h.frames]
      refine ⟨rfl, fun t' kept => ?_, driven.2⟩
      obtain ⟨⟨frames, wake⟩, suspended, rfl⟩ := Option.map_eq_some_iff.1 kept
      exact ⟨(driven.1 _ _ suspended).1, (driven.1 _ _ suspended).2⟩
  · rw [visit, if_neg there, visit, if_neg (by exact there)]
    exact ⟨rfl, by simp, nothing⟩

theorem visitAll_reseed (sure : program.Diceless) {tasks : List Task}
    (h : ∀ t ∈ tasks, t.Diceless) (w : World) :
    let visited := visitAll program tasks w
    visitAll program tasks (w.reseed seed) = (visited.1, visited.2.1, visited.2.2.reseed seed) ∧
      (∀ t ∈ visited.1, t.Diceless) ∧ ∀ p ∈ visited.2.1, p.2.Diceless := by
  induction tasks generalizing w with
  | nil => exact ⟨rfl, List.forall_mem_nil _, List.forall_mem_nil _⟩
  | cons t rest ih =>
    rw [List.forall_mem_cons] at h
    obtain ⟨first, kept, spawned⟩ := visit_reseed seed sure h.1 w
    obtain ⟨others, keptAll, spawnedAll⟩ := ih h.2 (visit program t w).2.2
    refine ⟨by simp only [visitAll, first, others],
      List.forall_mem_append.2 ⟨fun t' h' => kept t' (Option.mem_toList.1 h'), keptAll⟩,
      List.forall_mem_append.2 ⟨fun p h' => ?_, spawnedAll⟩⟩
    obtain ⟨f, listed, rfl⟩ := List.mem_map.1 h'
    exact spawned f listed

theorem tick_reseed (sure : program.Diceless) (h : s.Diceless) (w : World) :
    let ticked := tick program s w
    tick program s (w.reseed seed) = (ticked.1, ticked.2.reseed seed) ∧ ticked.1.Diceless := by
  by_cases running : w.running = true
  · obtain ⟨visited, kept, spawned⟩ := visitAll_reseed seed sure h w
    have left : Diceless { s with tasks := (visitAll program s.tasks w).1 } := kept
    rw [tick_eq program s running, tick_eq program _ (by exact running), visited]
    exact startEach_reseed seed sure left spawned _
  · rw [tick, tick, if_neg running, if_neg (by exact running)]
    exact ⟨rfl, List.forall_mem_nil _⟩

theorem Diceless.cancelOwner (h : s.Diceless) (owner : ObjectId) :
    (s.cancelOwner owner).Diceless :=
  fun t there => h t (List.mem_filter.1 there).1

end Scheduler

/-! ### Launches -/

namespace Dispatcher

structure Diceless (d : Dispatcher) : Prop where
  program : d.program.Diceless
  timers : ∀ t ∈ d.timers, BlockStage.Diceless t.entry.script.body

variable {d : Dispatcher} {s : Scheduler} (seed)

theorem launch_reseed (sure : d.Diceless) {entry : Program.Entry}
    (body : BlockStage.Diceless entry.script.body) (h : s.Diceless) (w : World) :
    let launched := d.launch entry s w
    d.launch entry s (w.reseed seed) = (launched.1, launched.2.reseed seed) ∧
      launched.1.Diceless :=
  Scheduler.launch_reseed seed entry.owner sure.program h body w

theorem launchAll_reseed (sure : d.Diceless) {entries : List Program.Entry}
    (bodies : ∀ e ∈ entries, BlockStage.Diceless e.script.body) (h : s.Diceless) (w : World) :
    let launched := d.launchAll entries s w
    d.launchAll entries s (w.reseed seed) =
        (launched.1, launched.2.1, launched.2.2.reseed seed) ∧
      launched.2.1.Diceless := by
  induction entries generalizing s w with
  | nil => exact ⟨rfl, h⟩
  | cons entry rest ih =>
    rw [List.forall_mem_cons] at bodies
    by_cases there : w.scene.contains entry.owner = true
    · obtain ⟨first, tasks⟩ := launch_reseed seed sure bodies.1 h w
      obtain ⟨others, tasks⟩ := ih bodies.2 tasks (d.launch entry s w).2
      rw [launchAll, if_pos there, launchAll, if_pos (by exact there)]
      exact ⟨by simp only [first, others], tasks⟩
    · rw [launchAll, if_neg there, launchAll, if_neg (by exact there)]
      exact ih bodies.2 h w

theorem dispatch_reseed (sure : d.Diceless) (event : Event) (target : Option ObjectId)
    (h : s.Diceless) (w : World) :
    let dispatched := d.dispatch event target s w
    d.dispatch event target s (w.reseed seed) =
        (dispatched.1, dispatched.2.1, dispatched.2.2.reseed seed) ∧
      dispatched.2.1.Diceless := by
  by_cases running : d.state = .running
  · rw [dispatch, if_pos running, dispatch, if_pos running]
    exact launchAll_reseed seed sure (fun e listed => sure.program e (List.mem_filter.1 listed).1) h w
  · rw [dispatch, if_neg running, dispatch, if_neg running]
    exact ⟨rfl, h⟩

theorem fireAll_reseed (sure : d.Diceless) {timers : List Timer}
    (bodies : ∀ t ∈ timers, BlockStage.Diceless t.entry.script.body) (h : s.Diceless)
    (w : World) :
    let fired := d.fireAll timers s w
    d.fireAll timers s (w.reseed seed) = (fired.1, fired.2.1, fired.2.2.reseed seed) ∧
      (∀ t ∈ fired.1, BlockStage.Diceless t.entry.script.body) ∧ fired.2.1.Diceless := by
  induction timers generalizing s w with
  | nil => exact ⟨rfl, List.forall_mem_nil _, h⟩
  | cons t rest ih =>
    rw [List.forall_mem_cons] at bodies
    by_cases due : t.isDue w.now = true
    · obtain ⟨first, tasks⟩ := launch_reseed seed sure bodies.1 h w
      obtain ⟨others, timers, tasks⟩ := ih bodies.2 tasks (d.launch t.entry s w).2
      rw [fireAll, if_pos due, fireAll, if_pos (by exact due)]
      exact ⟨by simp only [first, others, World.reseed_now],
        List.forall_mem_cons.2 ⟨bodies.1, timers⟩, tasks⟩
    · obtain ⟨others, timers, tasks⟩ := ih bodies.2 h w
      rw [fireAll, if_neg due, fireAll, if_neg (by exact due)]
      exact ⟨by simp only [others], List.forall_mem_cons.2 ⟨bodies.1, timers⟩, tasks⟩

theorem fireTimers_reseed (sure : d.Diceless) (h : s.Diceless) (w : World) :
    let fired := d.fireTimers s w
    d.fireTimers s (w.reseed seed) = (fired.1, fired.2.1, fired.2.2.reseed seed) ∧
      fired.1.Diceless ∧ fired.2.1.Diceless := by
  by_cases running : d.state = .running
  · obtain ⟨fired, timers, tasks⟩ := fireAll_reseed seed sure sure.timers h w
    rw [fireTimers, if_pos running, fireTimers, if_pos running]
    exact ⟨by simp only [fired], ⟨sure.program, timers⟩, tasks⟩
  · rw [fireTimers, if_neg running, fireTimers, if_neg running]
    exact ⟨rfl, sure, h⟩

end Dispatcher
end BlockStage
