import BlockStage.Proofs.Removal.Deeds

/-! The log of a run: what its tasks do, under whose number, and what happens to the world between.
It is kept beside the run; a chronicle splits both into episodes, each the work of one task at a
stretch or one change of the world. -/

namespace BlockStage

/-- Something that happens in a run, and the world in which it happens. -/
inductive Happening
  | does (task : Nat) (deed : Deed)
  /-- One animation step. -/
  | animates (dt : Float32) (world : World)
  /-- An object is removed from outside. -/
  | removes (id : ObjectId) (world : World)
  /-- The scene is replaced from outside. -/
  | edits (scene : Scene) (world : World)

def Happening.world : Happening → World
  | does _ deed => deed.world
  | animates _ world => world
  | removes _ world => world
  | edits _ world => world

abbrev Log := List Happening

namespace Scheduler

/-! ### Logs of tasks -/

variable (program : Program)

def nextLog (owner : ObjectId) (frame : Frame) (s : Scheduler) (w : World) : Log :=
  (nextDeeds program owner frame s w).map (.does s.nextId)

def startAllLog (owner : ObjectId) : (supply : Nat) → Queue Frame → Scheduler → World → Log
  | 0, _, _, _ => []
  | supply + 1, waiting, s, w =>
    match waiting.pop? with
    | none => []
    | some (frame, waiting) =>
      let (waiting, s', w') := startNext program owner frame waiting s w
      nextLog program owner frame s w ++ startAllLog owner supply waiting s' w'

def startLog (owner : ObjectId) (frame : Frame) (s : Scheduler) (w : World) : Log :=
  startAllLog program owner mostStarts (.ofList [frame]) s w

theorem startAllLog_empty (owner : ObjectId) (supply : Nat) (s : Scheduler) (w : World) :
    startAllLog program owner supply {} s w = [] := by
  cases supply <;> rfl

theorem startAllLog_of_pop? {owner : ObjectId} {waiting rest : Queue Frame} {frame : Frame}
    (h : waiting.pop? = some (frame, rest)) (supply : Nat) (s : Scheduler) (w : World) :
    startAllLog program owner (supply + 1) waiting s w =
      let next := startNext program owner frame rest s w
      nextLog program owner frame s w ++
        startAllLog program owner supply next.1 next.2.1 next.2.2 := by
  simp only [startAllLog, h]

theorem startLog_eq_first (owner : ObjectId) (frame : Frame) (s : Scheduler) (w : World) :
    startLog program owner frame s w =
      let next := startNext program owner frame {} s w
      nextLog program owner frame s w ++
        startAllLog program owner (mostStarts - 1) next.1 next.2.1 next.2.2 :=
  startAllLog_of_pop? program (rfl : (Queue.ofList [frame]).pop? = some (frame, {}))
    (mostStarts - 1) s w

def startEachLog : List (ObjectId × Frame) → Scheduler → World → Log
  | [], _, _ => []
  | (owner, frame) :: rest, s, w =>
    let (s', w') := start program owner frame s w
    startLog program owner frame s w ++ startEachLog rest s' w'

def launchLog (owner : ObjectId) (body : List Instruction) (s : Scheduler) (w : World) : Log :=
  if w.running && !body.isEmpty && w.scene.contains owner then
    startLog program owner (.sequence body) s w
  else []

def visitLog (t : Task) (w : World) : Log := (visitDeeds program t w).map (.does t.id)

def visitAllLog : List Task → World → Log
  | [], _ => []
  | t :: rest, w => visitLog program t w ++ visitAllLog rest (visit program t w).2.2

def tickLog (s : Scheduler) (w : World) : Log :=
  if w.running then
    let (tasks, spawned, w') := visitAll program s.tasks w
    visitAllLog program s.tasks w ++ startEachLog program spawned { s with tasks } w'
  else []

end Scheduler

namespace Dispatcher

variable (d : Dispatcher)

def launchAllLog : List Program.Entry → Scheduler → World → Log
  | [], _, _ => []
  | entry :: rest, s, w =>
    if w.scene.contains entry.owner then
      let (s', w') := d.launch entry s w
      s.launchLog d.program entry.owner entry.script.body w ++ launchAllLog rest s' w'
    else launchAllLog rest s w

def dispatchLog (event : Event) (target : Option ObjectId) (s : Scheduler) (w : World) : Log :=
  if d.state = .running then d.launchAllLog (d.program.matching event target) s w else []

def fireAllLog : List Timer → Scheduler → World → Log
  | [], _, _ => []
  | t :: rest, s, w =>
    if t.isDue w.now then
      let (s', w') := d.launch t.entry s w
      s.launchLog d.program t.entry.owner t.entry.script.body w ++ fireAllLog rest s' w'
    else fireAllLog rest s w

def fireLog (s : Scheduler) (w : World) : Log :=
  if d.state = .running then d.fireAllLog d.timers s w else []

end Dispatcher

/-! ### Episodes -/

structure World.Alike (w w' : World) : Prop where
  scene : w'.scene = w.scene
  effects : w'.effects = w.effects

namespace World

variable {w w' w'' : World}

theorem Alike.refl (w : World) : Alike w w := ⟨rfl, rfl⟩

theorem Alike.trans (first : Alike w w') (second : Alike w' w'') : Alike w w'' :=
  ⟨second.scene.trans first.scene, second.effects.trans first.effects⟩

end World

abbrev Moment := Scheduler × World

/-- A part of a run that nothing comes between. -/
inductive Episode : Moment → Log → Moment → Prop
  | start (program : Program) (owner : ObjectId) (frame : Frame) (waiting : Queue Frame)
      (s : Scheduler) (w : World) :
      Episode (s, w) (s.nextLog program owner frame w)
        (Scheduler.startNext program owner frame waiting s w).2
  | visit (program : Program) (before : List Task) (t : Task) (after : List Task) (nextId : Nat)
      (w : World) :
      Episode (⟨before ++ t :: after, nextId⟩, w) (Scheduler.visitLog program t w)
        (⟨before ++ (Scheduler.visit program t w).1.toList ++ after, nextId⟩,
          (Scheduler.visit program t w).2.2)
  /-- Some tasks are dropped. -/
  | drop {tasks tasks' : List Task} (h : tasks'.Sublist tasks) (nextId : Nat) (w : World) :
      Episode (⟨tasks, nextId⟩, w) [] (⟨tasks', nextId⟩, w)
  | animate (dt : Float32) (s : Scheduler) (w : World) :
      Episode (s, w) [.animates dt w] (s, w.stepEffects dt)
  | remove (id : ObjectId) (s : Scheduler) (w : World) :
      Episode (s, w) [.removes id w] (s, w.removeObject id)
  | edit (scene : Scene) (s : Scheduler) (w : World) :
      Episode (s, w) [.edits scene w] (s, { w with scene })
  | aside {w w' : World} (alike : w.Alike w') (s : Scheduler) : Episode (s, w) [] (s, w')

inductive Chronicle : Moment → Log → Moment → Prop
  | refl (m : Moment) : Chronicle m [] m
  | cons {m m' m'' : Moment} {log log' : Log} (first : Episode m log m')
      (rest : Chronicle m' log' m'') : Chronicle m (log ++ log') m''

namespace Chronicle

variable {m m' m'' : Moment} {log log' : Log}

theorem single (h : Episode m log m') : Chronicle m log m' :=
  List.append_nil log ▸ .cons h (.refl m')

protected theorem trans (first : Chronicle m log m') (second : Chronicle m' log' m'') :
    Chronicle m (log ++ log') m'' := by
  induction first with
  | refl => exact second
  | cons episode _ ih => exact List.append_assoc .. ▸ .cons episode (ih second)

theorem split (h : Chronicle m log m') {before after : Log} {x : Happening}
    (at_x : log = before ++ x :: after) :
    ∃ earlier pre post later m₁ m₂, Chronicle m earlier m₁ ∧ Episode m₁ (pre ++ x :: post) m₂ ∧
      Chronicle m₂ later m' ∧ before = earlier ++ pre ∧ after = post ++ later := by
  induction h generalizing before with
  | refl => simp at at_x
  | @cons m m₁ m' log log' first rest ih =>
    rcases List.append_eq_append_iff.1 at_x with ⟨earlier, rfl, later⟩ | ⟨post, rfl, later⟩
    · obtain ⟨between, pre, post, last, m₂, m₃, path, episode, on, rfl, rfl⟩ := ih later
      exact ⟨log ++ between, pre, post, last, m₂, m₃, .cons first path, episode, on,
        (List.append_assoc ..).symm, rfl⟩
    · cases post with
      | nil =>
        rw [List.append_nil] at first
        obtain ⟨between, pre, post, last, m₂, m₃, path, episode, on, none, rfl⟩ :=
          ih (show log' = [] ++ x :: after from later.symm)
        refine ⟨before ++ between, pre, post, last, m₂, m₃, .cons first path, episode, on, ?_, rfl⟩
        rw [List.append_assoc, ← none, List.append_nil]
      | cons y post =>
        obtain ⟨rfl, rfl⟩ := List.cons.inj later
        exact ⟨[], before, post, log', m, m₁, .refl m, first, rest, rfl, rfl⟩

end Chronicle

/-! ### The work of schedulers and dispatchers -/

namespace Scheduler

variable (program : Program) (owner : ObjectId)

theorem chronicle_startAll (supply : Nat) (waiting : Queue Frame) (s : Scheduler) (w : World) :
    Chronicle (s, w) (startAllLog program owner supply waiting s w)
      (startAll program owner supply waiting s w) := by
  induction supply generalizing waiting s w with
  | zero => exact .refl (s, w)
  | succ supply ih =>
    simp only [startAllLog, startAll]
    cases waiting.pop? with
    | none => exact .refl (s, w)
    | some next => exact .cons (.start program owner next.1 next.2 s w) (ih _ _ _)

theorem chronicle_start (frame : Frame) (s : Scheduler) (w : World) :
    Chronicle (s, w) (startLog program owner frame s w) (start program owner frame s w) :=
  chronicle_startAll program owner mostStarts _ s w

theorem chronicle_startEach (starts : List (ObjectId × Frame)) (s : Scheduler) (w : World) :
    Chronicle (s, w) (startEachLog program starts s w) (startEach program starts s w) := by
  induction starts generalizing s w with
  | nil => exact .refl (s, w)
  | cons p rest ih => exact (chronicle_start program p.1 p.2 s w).trans (ih _ _)

theorem chronicle_launch (body : List Instruction) (s : Scheduler) (w : World) :
    Chronicle (s, w) (launchLog program owner body s w) (launch program owner body s w) := by
  unfold launchLog launch
  split
  · exact chronicle_start program owner _ s w
  · exact .refl (s, w)

/-- Tasks that were visited stand before those whose turn is still to come. -/
theorem chronicle_visitAll (done tasks : List Task) (nextId : Nat) (w : World) :
    Chronicle (⟨done ++ tasks, nextId⟩, w) (visitAllLog program tasks w)
      (⟨done ++ (visitAll program tasks w).1, nextId⟩, (visitAll program tasks w).2.2) := by
  induction tasks generalizing done w with
  | nil => exact .refl _
  | cons t rest ih =>
    have later := ih (done ++ (visit program t w).1.toList) (visit program t w).2.2
    simp only [List.append_assoc done _ (visitAll program rest _).1] at later
    exact .cons (.visit program done t rest nextId w) later

theorem chronicle_tick (s : Scheduler) (w : World) :
    Chronicle (s, w) (tickLog program s w) (tick program s w) := by
  by_cases running : w.running = true
  · rw [tick_eq program s running, tickLog, if_pos running]
    exact (chronicle_visitAll program [] s.tasks s.nextId w).trans
      (chronicle_startEach program _ _ _)
  · rw [tick, tickLog, if_neg running, if_neg running]
    exact .single (.drop (List.nil_sublist s.tasks) s.nextId w)

end Scheduler

namespace Dispatcher

variable (d : Dispatcher)

theorem chronicle_launchAll (entries : List Program.Entry) (s : Scheduler) (w : World) :
    Chronicle (s, w) (d.launchAllLog entries s w) (d.launchAll entries s w).2 := by
  induction entries generalizing s w with
  | nil => exact .refl (s, w)
  | cons entry rest ih =>
    simp only [launchAllLog, launchAll]
    split
    · exact (Scheduler.chronicle_launch d.program entry.owner _ s w).trans (ih _ _)
    · exact ih s w

theorem chronicle_dispatch (event : Event) (target : Option ObjectId) (s : Scheduler) (w : World) :
    Chronicle (s, w) (d.dispatchLog event target s w) (d.dispatch event target s w).2 := by
  unfold dispatchLog dispatch
  split
  · exact d.chronicle_launchAll _ s w
  · exact .refl (s, w)

theorem chronicle_fireAll (timers : List Timer) (s : Scheduler) (w : World) :
    Chronicle (s, w) (d.fireAllLog timers s w) (d.fireAll timers s w).2 := by
  induction timers generalizing s w with
  | nil => exact .refl (s, w)
  | cons t rest ih =>
    simp only [fireAllLog, fireAll]
    split
    · exact (Scheduler.chronicle_launch d.program t.entry.owner _ s w).trans (ih _ _)
    · exact ih s w

theorem chronicle_fireTimers (s : Scheduler) (w : World) :
    Chronicle (s, w) (d.fireLog s w) (d.fireTimers s w).2 := by
  unfold fireLog fireTimers
  split
  · exact d.chronicle_fireAll d.timers s w
  · exact .refl (s, w)

end Dispatcher
end BlockStage
