import BlockStage.Proofs.Log.Traces
import BlockStage.Proofs.Session.Recording

/-! Straight code: no instruction of it asks its task for anything. A script of such code is run to
its end as soon as it is launched. -/

namespace BlockStage

def Straight (program : Program) (owner : ObjectId) (code : List Instruction) : Prop :=
  ∀ i ∈ code, ∀ w, (i.execute owner program w).1 = .next

def World.afterCode (w : World) (program : Program) (owner : ObjectId) (code : List Instruction) :
    World :=
  code.foldl (fun w i => (i.execute owner program w).2) w

def World.deedsOf (w : World) (program : Program) (owner : ObjectId) : List Instruction → List Deed
  | [] => []
  | i :: rest => ⟨owner, .executes i, w⟩ :: (i.execute owner program w).2.deedsOf program owner rest

variable {program : Program} {owner : ObjectId} {code : List Instruction} {w : World}

namespace Task

theorem drive_straight (straight : Straight program owner code) (running : w.running = true)
    (q : Queue Frame) :
    drive program owner [.sequence code] q w = ⟨none, q, w.afterCode program owner code⟩ ∧
      deeds program owner [.sequence code] w = w.deedsOf program owner code := by
  have ready {w : World} (running : w.running = true) :
      (w.running && decide (([] : List Frame).length < mostFrames)) = true := by
    simp [running, mostFrames]
  induction code generalizing w with
  | nil =>
    have ends : step program owner [.sequence []] w = (.go [], w) := by
      rw [step, if_pos (ready running)]
      rfl
    constructor
    · rw [drive_go ends, drive_finish rfl]
      rfl
    · have halts : step program owner [] w = (.finish, w) := rfl
      rw [deeds_go ends, deeds_halt halts rfl]
      simp only [stepDeeds, if_pos (ready running), Frame.act?]
      rfl
  | cons i rest ih =>
    obtain ⟨asks, later⟩ := List.forall_mem_cons.1 straight
    have goes : step program owner [.sequence (i :: rest)] w =
        (.go [.sequence rest], (i.execute owner program w).2) := by
      rw [step, if_pos (ready running)]
      simp only [stepTop, Frame.advance, asks w, Move.ofFlow]
    have still : (i.execute owner program w).2.running = true := by
      rw [(i.evolves_execute owner program w).running, running]
    obtain ⟨drives, does⟩ := ih later still
    constructor
    · rw [drive_go goes, drives]
      rfl
    · rw [deeds_go goes, does]
      simp only [stepDeeds, if_pos (ready running), Frame.act?]
      rfl

end Task

namespace Scheduler

theorem launch_straight (straight : Straight program owner code) (nonempty : code ≠ [])
    (running : w.running = true) (there : w.scene.contains owner = true) {s : Scheduler}
    (room : s.tasks.length < w.config.mostTasks) :
    launch program owner code s w = ({ s with nextId := s.nextId + 1 },
      w.afterCode program owner code) ∧
    launchLog program owner code s w =
      .does s.nextId ⟨owner, .starts (.sequence code), w⟩ ::
        (w.deedsOf program owner code).map (.does s.nextId) := by
  obtain ⟨drives, does⟩ := Task.drive_straight straight running {}
  have ready : (w.running && !code.isEmpty && w.scene.contains owner) = true := by
    simp [running, nonempty, there]
  have free : ¬ w.config.mostTasks ≤ s.tasks.length := Nat.not_le.2 room
  have first : startNext program owner (.sequence code) {} s w =
      ({}, { s with nextId := s.nextId + 1 }, w.afterCode program owner code) := by
    rw [startNext, if_neg free, drives]
  refine ⟨launch_of_drive drives nonempty running there room, ?_⟩
  rw [launchLog, if_pos ready, startLog_eq_first, first]
  dsimp only
  rw [startAllLog_empty, nextLog, nextDeeds, if_neg free, does, List.append_nil, List.map_cons]

end Scheduler

/-- A single script waits for the event, of straight code, and may be launched. -/
structure Dispatcher.Awaits (d : Dispatcher) (event : Event) (target : Option ObjectId)
    (e : Program.Entry) (s : Scheduler) (w : World) : Prop where
  dispatches : d.state = .running
  matching : d.program.matching event target = [e]
  straight : Straight d.program e.owner e.script.body
  nonempty : e.script.body ≠ []
  running : w.running = true
  there : w.scene.contains e.owner = true
  room : s.tasks.length < w.config.mostTasks

theorem Dispatcher.Awaits.dispatch {d : Dispatcher} {event : Event} {target : Option ObjectId}
    {e : Program.Entry} {s : Scheduler} (h : d.Awaits event target e s w) :
    d.dispatch event target s w = (1, { s with nextId := s.nextId + 1 },
      w.afterCode d.program e.owner e.script.body) ∧
    d.dispatchLog event target s w =
      .does s.nextId ⟨e.owner, .starts (.sequence e.script.body), w⟩ ::
        (w.deedsOf d.program e.owner e.script.body).map (.does s.nextId) := by
  obtain ⟨launched, logged⟩ :=
    Scheduler.launch_straight h.straight h.nonempty h.running h.there h.room
  constructor
  · rw [Dispatcher.dispatch, if_pos h.dispatches, h.matching]
    simp only [launchAll, h.there, if_true, launch, launched]
  · rw [dispatchLog, if_pos h.dispatches, h.matching]
    simp only [launchAllLog, h.there, if_true, logged, List.append_nil]

theorem Session.act_straight {s : Session} {event : Event} {target : Option ObjectId}
    {e : Program.Entry} (h : s.dispatcher.Awaits event target e s.scheduler s.world) :
    s.act (.dispatch event target) = { s with
      scheduler := { s.scheduler with nextId := s.scheduler.nextId + 1 }
      world := s.world.afterCode s.dispatcher.program e.owner e.script.body } ∧
    s.actLog (.dispatch event target) =
      .does s.scheduler.nextId ⟨e.owner, .starts (.sequence e.script.body), s.world⟩ ::
        (s.world.deedsOf s.dispatcher.program e.owner e.script.body).map
          (.does s.scheduler.nextId) := by
  obtain ⟨dispatched, logged⟩ := h.dispatch
  exact ⟨by rw [act, dispatch, dispatched], by rw [actLog, dispatchLog, logged]⟩

def clickScene (blocks : List Block) : Scene :=
  ({} : Scene).allocate.2.spawn
    { id := ⟨1⟩, scripts := [⟨1, 0, 0, ⟨1, "onClick", [], [], []⟩ :: blocks⟩] }

end BlockStage
