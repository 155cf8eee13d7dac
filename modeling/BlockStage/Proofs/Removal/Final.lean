import BlockStage.Palette.Standard
import BlockStage.Proofs.Removal.Deeds
import BlockStage.Proofs.Run.Identity

/-! Whether the removal of an object is final: what is done in its name afterwards, in any order of
launches, ticks, dispatches, timers and removals. -/

namespace BlockStage

namespace Dispatcher

def launchAllDeeds (d : Dispatcher) : List Program.Entry → Scheduler → World → List Deed
  | [], _, _ => []
  | entry :: rest, s, w =>
    if w.scene.contains entry.owner then
      let (s', w') := d.launch entry s w
      s.launchDeeds d.program entry.owner entry.script.body w ++ d.launchAllDeeds rest s' w'
    else d.launchAllDeeds rest s w

def dispatchDeeds (d : Dispatcher) (event : Event) (target : Option ObjectId) (s : Scheduler)
    (w : World) : List Deed :=
  if d.state = .running then d.launchAllDeeds (d.program.matching event target) s w else []

def fireAllDeeds (d : Dispatcher) : List Timer → Scheduler → World → List Deed
  | [], _, _ => []
  | t :: rest, s, w =>
    if t.isDue w.now then
      let (s', w') := d.launch t.entry s w
      s.launchDeeds d.program t.entry.owner t.entry.script.body w ++ d.fireAllDeeds rest s' w'
    else d.fireAllDeeds rest s w

def fireDeeds (d : Dispatcher) (s : Scheduler) (w : World) : List Deed :=
  if d.state = .running then d.fireAllDeeds d.timers s w else []

/-- What launches do that follow each other, each in the world that those before it left, and the
world in the end. -/
inductive Launches (program : Program) : Scheduler → World → List Deed → World → Prop
  | nil (s : Scheduler) (w : World) : Launches program s w [] w
  | cons {owner : ObjectId} {body : List Instruction} {ds : List Deed} {w' : World}
      (s : Scheduler) (w : World)
      (later : Launches program (s.launch program owner body w).1 (s.launch program owner body w).2
        ds w') :
      Launches program s w (s.launchDeeds program owner body w ++ ds) w'

variable {program : Program} {s : Scheduler} {w w' : World} {ds : List Deed} {id : ObjectId}

theorem Launches.balanced (h : Launches program s w ds w') : Balanced ds := by
  induction h with
  | nil => exact balanced_of_present (by simp)
  | cons s w _ ih => exact balanced_append Scheduler.balanced_launchDeeds ih

theorem not_owner_of_launchDeeds {owner : ObjectId} {body : List Instruction}
    (gone : id ∉ w.scene.ids) : ∀ d ∈ s.launchDeeds program owner body w, d.owner ≠ id := by
  intro d hd
  obtain ⟨rfl, present⟩ := Scheduler.owner_of_launchDeeds hd
  exact fun same => gone (same ▸ present)

theorem Launches.tends (h : Launches program s w ds w') : Tends w w' := by
  induction h with
  | nil s w => exact .refl w
  | @cons owner body _ _ s w _ ih => exact (kept_tends.launch program owner body s w).trans ih

theorem Launches.not_owner (h : Launches program s w ds w') (last : w.NumbersLast w')
    (left : w.Left id) : ∀ d ∈ ds, d.owner ≠ id := by
  induction h with
  | nil => simp
  | @cons owner body _ _ s w later ih =>
    have launched := kept_tends.launch program owner body s w
    obtain ⟨now_last, later_last⟩ := launched.numbersLast later.tends last
    intro d hd
    rcases List.mem_append.1 hd with now | later
    · exact not_owner_of_launchDeeds left.1 d now
    · exact ih later_last (launched.left now_last left) d later

theorem launches_launchAll (d : Dispatcher) (entries : List Program.Entry) (s : Scheduler)
    (w : World) :
    Launches d.program s w (d.launchAllDeeds entries s w) (d.launchAll entries s w).2.2 := by
  induction entries generalizing s w with
  | nil => exact .nil s w
  | cons entry rest ih =>
    rw [launchAllDeeds, launchAll]
    split
    · exact .cons s w (ih _ _)
    · exact ih s w

theorem launches_dispatch (d : Dispatcher) (event : Event) (target : Option ObjectId)
    (s : Scheduler) (w : World) :
    Launches d.program s w (d.dispatchDeeds event target s w)
      (d.dispatch event target s w).2.2 := by
  unfold dispatchDeeds dispatch
  split
  · exact d.launches_launchAll _ s w
  · exact .nil s w

theorem launches_fireAll (d : Dispatcher) (timers : List Timer) (s : Scheduler) (w : World) :
    Launches d.program s w (d.fireAllDeeds timers s w) (d.fireAll timers s w).2.2 := by
  induction timers generalizing s w with
  | nil => exact .nil s w
  | cons t rest ih =>
    rw [fireAllDeeds, fireAll]
    split
    · exact .cons s w (ih _ _)
    · exact ih s w

theorem launches_fire (d : Dispatcher) (s : Scheduler) (w : World) :
    Launches d.program s w (d.fireDeeds s w) (d.fireTimers s w).2.2 := by
  unfold fireDeeds fireTimers
  split
  · exact d.launches_fireAll d.timers s w
  · exact .nil s w

end Dispatcher

namespace Scheduler

variable {program : Program} {s : Scheduler} {w : World} {d : Deed} {id : ObjectId}

theorem not_owner_of_visitAll (tasks : List Task)
    (last : w.NumbersLast (visitAll program tasks w).2.2) (left : w.Left id) :
    (∀ d ∈ visitAllDeeds program tasks w, d.owner ≠ id) ∧
      ∀ p ∈ (visitAll program tasks w).2.1, p.1 ≠ id := by
  induction tasks generalizing w with
  | nil => simp [visitAllDeeds, visitAll]
  | cons t rest ih =>
    have visited := kept_tends.visit program t w
    obtain ⟨now_last, later_last⟩ :=
      visited.numbersLast (kept_tends.visitAll program rest _) last
    obtain ⟨deeds, spawned⟩ := ih later_last (visited.left now_last left)
    constructor
    · intro d hd
      rcases List.mem_append.1 hd with now | later
      · obtain ⟨same, present, -⟩ := mem_visitDeeds now
        exact fun self => left.1 (self ▸ same ▸ present)
      · exact deeds d later
    · intro p hp
      simp only [visitAll, List.mem_append, List.mem_map] at hp
      rcases hp with ⟨f, hf, rfl⟩ | hp
      · exact fun self => left.1 (self ▸ (spawned_of_visit program hf).1)
      · exact spawned p hp

theorem not_owner_of_tickDeeds (last : w.NumbersLast (tick program s w).2) (left : w.Left id)
    (h : d ∈ tickDeeds program s w) : d.owner ≠ id := by
  unfold tickDeeds at h
  split at h
  · rename_i running
    rw [tick_eq program s running] at last
    have visits_last := ((kept_tends.visitAll program s.tasks w).numbersLast
      (kept_tends.startEach program _ _ _) last).1
    obtain ⟨deeds, spawned⟩ := not_owner_of_visitAll s.tasks visits_last left
    rcases List.mem_append.1 h with visits | starts
    · exact deeds d visits
    · obtain ⟨p, hp, same⟩ := owner_of_startEachDeeds starts
      exact same ▸ spawned p hp
  · simp at h

end Scheduler

/-! ### Runs -/

/-- What is done to the world between two cues. No object comes. -/
structure Change where
  apply : World → World
  evolves : ∀ w, Evolves w (apply w)
  hands : ∀ w, Hands [] w (apply w)

namespace Change

def ofCalm (apply : World → World) (calm : ∀ w, Calm w (apply w)) : Change where
  apply := apply
  evolves w := (calm w).grows.toEvolves
  hands w := (calm w).hands

def clock (now : Float) : Change :=
  ofCalm (fun w => { w with now }) fun _ => .of_same rfl rfl rfl rfl rfl rfl

def input (input : InputState) : Change :=
  ofCalm (fun w => { w with input }) fun _ => .of_same rfl rfl rfl rfl rfl rfl

def play (input : InputState) (player : Player) (raised : Queue RaisedEvent) : Change :=
  ofCalm (fun w => { w with input, player, raised }) fun _ => .of_same rfl rfl rfl rfl rfl rfl

def scripts (id : ObjectId) (canvas : List Stack) : Change :=
  ofCalm (fun w => { w with scene := w.scene.modify id fun o => { o with scripts := canvas } })
    fun _ => .of_same rfl rfl (Scene.ids_modify _ _ fun _ same => same) rfl rfl rfl

def effects (dt : Float32) : Change := ofCalm (·.stepEffects dt) fun w => w.calm_stepEffects dt

def countdown (dt : Float) : Change :=
  ofCalm (·.advanceCountdown dt) fun w => w.calm_advanceCountdown dt

def drain : Change where
  apply w := { w with notices := {} }
  evolves _ := ⟨rfl, rfl⟩
  hands _ := .nothing (List.Subset.refl _) rfl id id

end Change

inductive Cue
  | launch (owner : ObjectId) (body : List Instruction)
  | tick
  | dispatch (event : Event) (target : Option ObjectId)
  | fireTimers
  | remove (id : ObjectId)
  | change (change : Change)

structure Stage where
  dispatcher : Dispatcher
  scheduler : Scheduler
  world : World

namespace Stage

def perform (x : Stage) : Cue → Stage
  | .launch owner body =>
    let (scheduler, world) := x.scheduler.launch x.dispatcher.program owner body x.world
    { x with scheduler, world }
  | .tick =>
    let (scheduler, world) := x.scheduler.tick x.dispatcher.program x.world
    { x with scheduler, world }
  | .dispatch event target =>
    let (_, scheduler, world) := x.dispatcher.dispatch event target x.scheduler x.world
    { x with scheduler, world }
  | .fireTimers =>
    let (dispatcher, scheduler, world) := x.dispatcher.fireTimers x.scheduler x.world
    ⟨dispatcher, scheduler, world⟩
  | .remove id =>
    { x with scheduler := x.scheduler.cancelOwner id, world := x.world.removeObject id }
  | .change change => { x with world := change.apply x.world }

def deedsAt (x : Stage) : Cue → List Deed
  | .launch owner body => x.scheduler.launchDeeds x.dispatcher.program owner body x.world
  | .tick => x.scheduler.tickDeeds x.dispatcher.program x.world
  | .dispatch event target => x.dispatcher.dispatchDeeds event target x.scheduler x.world
  | .fireTimers => x.dispatcher.fireDeeds x.scheduler x.world
  | .remove _ => []
  | .change _ => []

def performAll (x : Stage) : List Cue → Stage
  | [] => x
  | cue :: rest => (x.perform cue).performAll rest

def deeds (x : Stage) : List Cue → List Deed
  | [] => []
  | cue :: rest => x.deedsAt cue ++ (x.perform cue).deeds rest

def handedAt (x : Stage) : Cue → List ObjectId
  | .change _ => []
  | cue => x.world.handedSince (x.perform cue).world

def handed (x : Stage) : List Cue → List ObjectId
  | [] => []
  | cue :: rest => x.handedAt cue ++ (x.perform cue).handed rest

theorem tends_perform (x : Stage) {cue : Cue} (work : ∀ change, cue ≠ .change change) :
    Tends x.world (x.perform cue).world := by
  cases cue with
  | launch owner body => exact kept_tends.launch x.dispatcher.program owner body x.scheduler x.world
  | tick => exact kept_tends.tick x.dispatcher.program x.scheduler x.world
  | dispatch event target => exact kept_tends.dispatch x.dispatcher event target x.scheduler x.world
  | fireTimers => exact kept_tends.fireTimers x.dispatcher x.scheduler x.world
  | remove id => exact x.world.tends_removeObject id
  | change change => exact absurd rfl (work change)

theorem hands_perform (x : Stage) (cue : Cue) :
    Hands (x.handedAt cue) x.world (x.perform cue).world := by
  cases cue with
  | change change => exact change.hands x.world
  | _ => exact (x.tends_perform fun _ other => by cases other).hands

theorem hands_performAll (x : Stage) (cues : List Cue) :
    Hands (x.handed cues) x.world (x.performAll cues).world := by
  induction cues generalizing x with
  | nil => exact .refl x.world
  | cons cue rest ih => exact (x.hands_perform cue).trans (ih _)

theorem balanced_deedsAt (x : Stage) (cue : Cue) : Balanced (x.deedsAt cue) := by
  cases cue with
  | launch owner body => exact Scheduler.balanced_launchDeeds
  | tick => exact Scheduler.balanced_tickDeeds
  | dispatch event target => exact (x.dispatcher.launches_dispatch event target _ _).balanced
  | fireTimers => exact (x.dispatcher.launches_fire _ _).balanced
  | remove id => exact balanced_of_present (by simp [deedsAt])
  | change change => exact balanced_of_present (by simp [deedsAt])

theorem not_owner_of_deedsAt {x : Stage} {cue : Cue} {id : ObjectId}
    (room : x.world.scene.nextId.toNat + (x.handedAt cue).length < ObjectId.limit)
    (left : x.world.Left id) : ∀ d ∈ x.deedsAt cue, d.owner ≠ id := by
  cases cue with
  | launch owner body => exact Dispatcher.not_owner_of_launchDeeds left.1
  | tick => exact fun d hd => Scheduler.not_owner_of_tickDeeds room left hd
  | dispatch event target =>
    exact (x.dispatcher.launches_dispatch event target _ _).not_owner room left
  | fireTimers => exact (x.dispatcher.launches_fire _ _).not_owner room left
  | remove id => simp [deedsAt]
  | change change => simp [deedsAt]

theorem balanced_deeds (x : Stage) (cues : List Cue) : Balanced (x.deeds cues) := by
  induction cues generalizing x with
  | nil => exact balanced_of_present (by simp [deeds])
  | cons cue rest ih => exact balanced_append (x.balanced_deedsAt cue) (ih _)

/-- As long as numbers last, nothing is done any more for an object that is gone. -/
theorem not_owner_of_deeds {x : Stage} {cues : List Cue} {id : ObjectId}
    (room : x.world.scene.nextId.toNat + (x.handed cues).length < ObjectId.limit)
    (left : x.world.Left id) : ∀ d ∈ x.deeds cues, d.owner ≠ id := by
  induction cues generalizing x with
  | nil => simp [deeds]
  | cons cue rest ih =>
    rw [handed, List.length_append] at room
    have performed := x.hands_perform cue
    have near : x.world.scene.nextId.toNat + (x.handedAt cue).length < ObjectId.limit := by omega
    have nextId := performed.toNat_nextId near
    intro d hd
    rcases List.mem_append.1 hd with now | later
    · exact not_owner_of_deedsAt near left d now
    · exact ih (by omega) (performed.left near left) d later

theorem performAll_append (x : Stage) (before after : List Cue) :
    x.performAll (before ++ after) = (x.performAll before).performAll after := by
  induction before generalizing x with
  | nil => rfl
  | cons cue before ih => exact ih _

/-- In a run code is executed for an owner that is gone just if the loop of a forever block gets
its task when the owner is already gone. This can only happen before the next cue: as long as
numbers last, an object that has left by the end of a cue does not come back, and nothing more is
done for it. -/
theorem removal_final_iff (x : Stage) (cues : List Cue) :
    ((∀ d ∈ x.deeds cues, d.act.Runs → ¬ d.Orphaned) ↔
      ∀ d ∈ x.deeds cues, ∀ frame : Frame, frame.IsLoop → d.act = .starts frame → ¬ d.Orphaned) ∧
    ∀ before after, cues = before ++ after → ∀ id, (x.performAll before).world.Left id →
      let y := x.performAll before
      y.world.scene.nextId.toNat + (y.handed after).length < ObjectId.limit →
        (x.performAll cues).world.Left id ∧ ∀ d ∈ y.deeds after, d.owner ≠ id := by
  constructor
  · have balanced := not_congr (x.balanced_deeds cues)
    constructor
    · rintro none_runs d hd frame loop starts orphaned
      refine balanced.1 ?_ ⟨d, hd, ⟨frame, loop, starts⟩, orphaned⟩
      rintro ⟨d, hd, runs, orphaned⟩
      exact none_runs d hd runs orphaned
    · rintro none_starts d hd runs orphaned
      refine balanced.2 ?_ ⟨d, hd, runs, orphaned⟩
      rintro ⟨d, hd, ⟨frame, loop, starts⟩, orphaned⟩
      exact none_starts d hd frame loop starts orphaned
  · rintro before after rfl id left y room
    rw [performAll_append]
    exact ⟨(y.hands_performAll after).left room left, not_owner_of_deeds room left⟩

end Stage

/-! ### An object that leaves a loop behind -/

section Leaving

def leaving : Scene where
  objects := [{
    id := ⟨1⟩
    scripts := [⟨1, 0, 0, [⟨1, "onStart", [], [], []⟩,
      ⟨2, "forever", [], [⟨3, "stopEffects", [], [], []⟩], []⟩,
      ⟨4, "destroy", [], [], []⟩]⟩] }]
  nextId := 2

def leavingStage : Stage where
  dispatcher := .start (.ofScene .standard leaving) 0
  scheduler := {}
  world := { World.ofConfig {} with scene := leaving, running := true }

def stopEffects : Instruction := ⟨.stopEffects, [], .command, .stopEffects, [], []⟩

def leavingBody : List Instruction :=
  [⟨.forever, [], .container, .forever, [stopEffects], []⟩,
    ⟨.destroy, [], .command, .destroy, [], []⟩]

def leftLoop : Frame := .forever [stopEffects] false

theorem matching_leaving : leavingStage.dispatcher.program.matching .start none =
    [⟨⟨1⟩, ⟨.start, [], leavingBody⟩⟩] := rfl

theorem drive_leaving (program : Program) :
    Task.drive program ⟨1⟩ [.sequence leavingBody] {} leavingStage.world =
      ⟨none, Queue.push {} leftLoop, leavingStage.world.removeObject ⟨1⟩⟩ := by
  have spawns : Task.step program ⟨1⟩ [.sequence leavingBody] leavingStage.world =
      (.spawn [.sequence leavingBody.tail] leftLoop, leavingStage.world) := rfl
  have leaves : Task.step program ⟨1⟩ [.sequence leavingBody.tail] leavingStage.world =
      (.finish, leavingStage.world.removeObject ⟨1⟩) := rfl
  rw [Task.drive_spawn spawns, Task.drive_finish leaves]

theorem starts_leftLoop (program : Program) :
    ⟨⟨1⟩, .starts leftLoop, leavingStage.world.removeObject ⟨1⟩⟩ ∈
      Scheduler.launchDeeds program ⟨1⟩ leavingBody {} leavingStage.world := by
  have there : (leavingStage.world.running && !leavingBody.isEmpty &&
      leavingStage.world.scene.contains ⟨1⟩) = true := rfl
  obtain ⟨supply, hs⟩ : ∃ supply, Scheduler.mostStarts = supply + 2 :=
    ⟨Scheduler.mostStarts - 2, rfl⟩
  have first : Scheduler.startNext program ⟨1⟩ (.sequence leavingBody) {} {} leavingStage.world =
      (Queue.push {} leftLoop, ⟨[], 1⟩, leavingStage.world.removeObject ⟨1⟩) := by
    rw [Scheduler.startNext, drive_leaving]
    rfl
  have popped : (Queue.ofList [Frame.sequence leavingBody]).pop? =
      some (.sequence leavingBody, {}) := rfl
  have again : (Queue.push {} leftLoop).pop? = some (leftLoop, {}) := rfl
  rw [Scheduler.launchDeeds, if_pos there, Scheduler.startDeeds, hs,
    Scheduler.startAllDeeds_of_pop? popped, first]
  refine List.mem_append_right _ ?_
  rw [Scheduler.startAllDeeds_of_pop? again]
  exact List.mem_append_left _ List.mem_cons_self

/-- Pressing the start button of this scene runs code for an object that has destroyed itself. -/
theorem leaving_runs_orphaned :
    ¬ ∀ d ∈ leavingStage.deeds [.dispatch .start none], d.act.Runs → ¬ d.Orphaned := by
  intro final
  have left : Deed.Orphaned
      ⟨⟨1⟩, .starts leftLoop, leavingStage.world.removeObject ⟨1⟩⟩ := by
    change ⟨1⟩ ∉ (leavingStage.world.removeObject ⟨1⟩).scene.ids
    decide
  have loop : leftLoop.IsLoop := ⟨[stopEffects], by simp, rfl⟩
  have starts : ⟨⟨1⟩, .starts leftLoop, leavingStage.world.removeObject ⟨1⟩⟩ ∈
      leavingStage.deeds [.dispatch .start none] := by
    refine List.mem_append_left _ ?_
    change _ ∈ leavingStage.dispatcher.launchAllDeeds
      (leavingStage.dispatcher.program.matching .start none) {} leavingStage.world
    rw [matching_leaving]
    exact List.mem_append_left _ (starts_leftLoop _)
  obtain ⟨d, hd, runs, orphaned⟩ :=
    (leavingStage.balanced_deeds [.dispatch .start none]).2 ⟨_, starts, ⟨_, loop, rfl⟩, left⟩
  exact final d hd runs orphaned

end Leaving
end BlockStage
