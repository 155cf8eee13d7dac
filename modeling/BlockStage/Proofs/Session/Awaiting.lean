import BlockStage.Proofs.Effect.Histories
import BlockStage.Proofs.Session.Gliding

/-! The effects of a session have one history over all its runs, and a task that waits for an effect
waits for a glide of its own object, which that history has started. -/

namespace BlockStage

open Registry (Call Started history)

def World.CallsTo (w w' : World) : Prop := ∃ calls, w'.effects = w.effects.performAll calls

theorem World.CallsTo.trans {w w' w'' : World} (first : w.CallsTo w') (second : w'.CallsTo w'') :
    w.CallsTo w'' := by
  obtain ⟨calls, eq⟩ := first
  obtain ⟨calls', eq'⟩ := second
  exact ⟨calls ++ calls', by rw [eq', eq, Registry.performAll_append]⟩

theorem Command.Affects.callsTo {owner : ObjectId} {w w' : World} {command : Command}
    (h : command.Affects owner w w') : w.CallsTo w' := by
  cases h with
  | leave _ _ effects => exact ⟨[], effects⟩
  | change _ _ _ _ _ effects => exact ⟨[], effects⟩
  | spawn _ _ _ _ effects => exact ⟨[], effects⟩
  | start _ effect _ effects => exact ⟨[.add owner effect], effects⟩
  | stopParticles _ effects => exact ⟨[.stopParticles owner], effects⟩
  | stopEffects _ effects => exact ⟨[.removeObject owner], effects⟩
  | destroy _ effects => exact ⟨[.removeObject owner], effects⟩

theorem kept_callsTo : Kept World.CallsTo where
  refl _ := ⟨[], rfl⟩
  trans := .trans
  execute i owner program w := (i.affects_execute owner program w).callsTo

theorem World.callsTo_removeObject (w : World) (id : ObjectId) : w.CallsTo (w.removeObject id) := by
  unfold removeObject
  split
  · exact ⟨[.removeObject id], rfl⟩
  · exact ⟨[], rfl⟩

/-! ### Waits -/

variable {program : Program} {owner : ObjectId} {w w' : World} {calls more : List Call}
  {r : Registry}

/-- If it is a record that is waited for, the calls have started it, for a glide of the object. -/
def Wake.Owned (wake : Wake) (r : Registry) (calls : List Call) (owner : ObjectId) : Prop :=
  ∀ id, wake = .effect id → ∃ start finish duration,
    r.Started calls ⟨id, owner, 0, .glide start finish duration⟩

theorem Wake.Owned.append {wake : Wake} (h : wake.Owned r calls owner) (more : List Call) :
    wake.Owned r (calls ++ more) owner := by
  intro id waits
  obtain ⟨start, finish, duration, started⟩ := h id waits
  exact ⟨start, finish, duration, started.append more⟩

theorem Wake.Owned.prepend {wake : Wake} (calls : List Call)
    (h : wake.Owned (r.performAll calls) more owner) : wake.Owned r (calls ++ more) owner := by
  intro id waits
  obtain ⟨start, finish, duration, started⟩ := h id waits
  exact ⟨start, finish, duration, started.prepend calls⟩

theorem Wake.Owned.of_putOff {wake wake' : Wake} (h : wake.Owned r calls owner)
    (later : wake.PutOff wake') : wake'.Owned r calls owner := by
  cases later with
  | same => exact h
  | poll => simp [Owned]

theorem Instruction.owned_of_execute {i : Instruction} {wake : Wake}
    (h : i.execute owner program w = (.suspend wake, w')) :
    ∃ calls, w'.effects = w.effects.performAll calls ∧ wake.Owned w.effects calls owner := by
  have called := kept_callsTo.execute i owner program w
  rw [h] at called
  cases asks_of_execute h with
  | wait | poll =>
    obtain ⟨calls, eq⟩ := called
    exact ⟨calls, eq, by simp [Wake.Owned]⟩
  | @glide target seconds relative command record =>
    simp only [execute, command, World.glide] at h
    split at h
    · simp at h
    · split at h
      · simp at h
      · rename_i o _ _
        obtain ⟨same, rfl⟩ := Prod.mk.inj h
        refine ⟨[.add owner (.glide o.position (if relative then o.position + target else target)
          (Scalar.narrow seconds))], rfl, fun id waits => ?_⟩
        obtain rfl := Wake.effect.inj ((Flow.suspend.inj same).trans waits)
        exact ⟨_, _, _, [], owner, _, [], rfl, rfl⟩

namespace Task

theorem owned_of_step {frames left : List Frame} {wake : Wake}
    (h : step program owner frames w = (.suspend left wake, w')) :
    ∃ calls, w'.effects = w.effects.performAll calls ∧ wake.Owned w.effects calls owner := by
  have called := kept_callsTo.step program owner frames w
  rw [h] at called
  cases steps_of_step h with
  | rest _ advance =>
    obtain ⟨calls, eq⟩ := called
    refine ⟨calls, eq, ?_⟩
    rw [Frame.wake_of_advance_rest advance]
    simp [Wake.Owned, Frame.loopWake]
  | suspend _ execute => exact Instruction.owned_of_execute execute

theorem callsTo_of_passes {frames last spawned : List Frame}
    (h : Passes program owner frames w spawned last w') : w.CallsTo w' := by
  induction h with
  | refl => exact kept_callsTo.refl _
  | @go frames _ _ _ w _ _ move _ ih | @spawn frames _ _ _ _ w _ _ move _ ih =>
    have moved := kept_callsTo.step program owner frames w
    rw [move] at moved
    exact moved.trans ih

theorem owned_of_drive (program : Program) (owner : ObjectId) (frames : List Frame)
    (q : Queue Frame) (w : World) :
    ∃ calls, (drive program owner frames q w).world.effects = w.effects.performAll calls ∧
      ∀ left wake, (drive program owner frames q w).suspended = some (left, wake) →
        wake.Owned w.effects calls owner := by
  obtain ⟨spawned, last, w₁, path, ⟨left, wake, w', move, eq⟩ | ⟨w', -, eq⟩⟩ :=
    drive_eq program owner frames w
  · obtain ⟨before, reached⟩ := callsTo_of_passes path
    obtain ⟨calls, ended, owned⟩ := owned_of_step move
    rw [eq]
    refine ⟨before ++ calls, by rw [Registry.performAll_append, ← reached, ended], ?_⟩
    rintro _ _ ⟨⟩
    rw [reached] at owned
    exact owned.prepend before
  · obtain ⟨calls, ended⟩ := kept_callsTo.drive program owner frames q w
    rw [eq] at ended ⊢
    exact ⟨calls, ended, by simp⟩

end Task

/-! ### Moments -/

/-- The calls have led to the effects, and have started those that tasks wait for. -/
structure Moment.Follows (m : Moment) (calls : List Call) : Prop where
  effects : m.2.effects = history calls
  owned : ∀ t ∈ m.1.tasks, t.wake.Owned {} calls t.owner

def Moment.Continues (m m' : Moment) : Prop :=
  ∀ calls, m.Follows calls → ∃ more, m'.Follows (calls ++ more)

namespace Moment.Continues

variable {m m' m'' : Moment}

protected theorem refl (m : Moment) : m.Continues m :=
  fun calls h => ⟨[], by rwa [List.append_nil]⟩

protected theorem trans (first : m.Continues m') (second : m'.Continues m'') :
    m.Continues m'' := by
  intro calls h
  obtain ⟨more, here⟩ := first calls h
  obtain ⟨more', later⟩ := second (calls ++ more) here
  exact ⟨more ++ more', by rwa [← List.append_assoc]⟩

theorem of_owned (effects : m'.2.effects = m.2.effects.performAll more)
    (owned : ∀ t ∈ m'.1.tasks, (∃ t' ∈ m.1.tasks, t'.owner = t.owner ∧ t'.wake.PutOff t.wake) ∨
      t.wake.Owned m.2.effects more t.owner) : m.Continues m' := by
  intro calls h
  refine ⟨more, by rw [effects, h.effects, Registry.history_append], fun t ht => ?_⟩
  obtain ⟨t', ht', same, later⟩ | new := owned t ht
  · exact same ▸ ((h.owned t' ht').of_putOff later).append more
  · rw [h.effects] at new
    exact new.prepend calls

theorem of_subset (called : m.2.CallsTo m'.2) (tasks : m'.1.tasks ⊆ m.1.tasks) :
    m.Continues m' := by
  obtain ⟨more, effects⟩ := called
  exact of_owned effects fun t ht => .inl ⟨t, tasks ht, rfl, .same t.wake⟩

end Moment.Continues

theorem Scheduler.continues_startNext (program : Program) (owner : ObjectId) (frame : Frame)
    (waiting : Queue Frame) (s : Scheduler) (w : World) :
    Moment.Continues (s, w) (startNext program owner frame waiting s w).2 := by
  by_cases room : w.config.mostTasks ≤ s.tasks.length
  · rw [startNext, if_pos room]
    exact .refl (s, w)
  · obtain ⟨calls, effects, owned⟩ := Task.owned_of_drive program owner [frame] waiting w
    have reached : (startNext program owner frame waiting s w).2.2.effects =
        w.effects.performAll calls := by
      rw [startNext, if_neg room]
      exact effects
    refine .of_owned reached fun t ht => ?_
    rw [startNext_eq room] at ht
    rcases List.mem_append.1 ht with old | new
    · exact .inl ⟨t, old, rfl, .same t.wake⟩
    · obtain ⟨⟨left, wake⟩, suspended, rfl⟩ :=
        Option.map_eq_some_iff.1 (Option.mem_toList.1 new)
      exact .inr (owned left wake suspended)

theorem Scheduler.owned_of_visit (program : Program) (t : Task) (w : World) :
    ∃ calls, (visit program t w).2.2.effects = w.effects.performAll calls ∧
      ∀ t', (visit program t w).1 = some t' → t'.owner = t.owner ∧
        (t.wake.PutOff t'.wake ∨ t'.wake.Owned w.effects calls t'.owner) := by
  have looked := kept_callsTo.wakes t w
  have putOff := t.putOff_wakes w
  unfold visit
  split
  · split
    · rename_i wake w' woken
      rw [woken] at looked putOff
      obtain ⟨calls, effects⟩ := looked
      refine ⟨calls, effects, ?_⟩
      rintro _ ⟨⟩
      exact ⟨rfl, .inl putOff⟩
    · rename_i wake w' woken
      rw [woken] at looked
      obtain ⟨before, looked⟩ := looked
      obtain ⟨calls, effects, owned⟩ := Task.owned_of_drive program t.owner t.frames {} w'
      refine ⟨before ++ calls, by rw [Registry.performAll_append, ← looked, effects], ?_⟩
      intro t' kept
      obtain ⟨⟨left, wake⟩, suspended, rfl⟩ := Option.map_eq_some_iff.1 kept
      refine ⟨rfl, .inr ?_⟩
      rw [looked] at owned
      exact (owned left wake suspended).prepend before
  · exact ⟨[], rfl, by simp⟩

theorem Episode.continues {m m' : Moment} {log : Log} (h : Episode m log m') : m.Continues m' := by
  cases h with
  | start program owner frame waiting s w =>
    exact Scheduler.continues_startNext program owner frame waiting s w
  | visit program before t after nextId w =>
    obtain ⟨calls, effects, kept⟩ := Scheduler.owned_of_visit program t w
    refine .of_owned effects fun t' ht => ?_
    simp only [List.append_assoc, List.mem_append, Option.mem_toList] at ht
    rcases ht with there | left | there
    · exact .inl ⟨t', by simp [there], rfl, .same t'.wake⟩
    · obtain ⟨owner, putOff | new⟩ := kept t' left
      · exact .inl ⟨t, by simp, owner.symm, putOff⟩
      · exact .inr new
    · exact .inl ⟨t', by simp [there], rfl, .same t'.wake⟩
  | drop fewer nextId w => exact .of_subset ⟨[], rfl⟩ fewer.subset
  | animate dt s w => exact .of_subset ⟨[.step _ w.scene], rfl⟩ (List.Subset.refl _)
  | remove id s w => exact .of_subset (w.callsTo_removeObject id) (List.Subset.refl _)
  | edit => exact .of_subset ⟨[], rfl⟩ (List.Subset.refl _)
  | aside alike s => exact .of_subset ⟨[], alike.effects⟩ (List.Subset.refl _)

theorem Chronicle.continues {m m' : Moment} {log : Log} (h : Chronicle m log m') :
    m.Continues m' := by
  induction h with
  | refl m => exact .refl m
  | cons first _ ih => exact first.continues.trans ih

/-! ### Sessions -/

namespace Session

variable {s s' : Session} {log : Log}

theorem Records.continues (h : s.Records log s') : s.moment.Continues s'.moment :=
  Chronicle.continues h

theorem continues_of_subset (called : s.world.CallsTo s'.world)
    (tasks : s'.scheduler.tasks ⊆ s.scheduler.tasks) : s.moment.Continues s'.moment :=
  .of_subset called tasks

theorem moment_continues_stop (s : Session) : s.moment.Continues s.stop.moment :=
  continues_of_subset ⟨[.clear], rfl⟩ (List.nil_subset _)

theorem moment_continues_opened (s : Session) (settings : Settings) :
    s.moment.Continues (s.opened settings).moment := by
  have ready : s.moment.Continues s.ready.moment := by
    unfold Session.ready
    split
    · exact s.moment_continues_stop
    · exact .refl s.moment
  have cleared : (s.opened settings).world.effects = s.ready.world.effects.clear := by
    simp only [opened, World.showAllVars_eq]
    rfl
  exact ready.trans (continues_of_subset ⟨[.clear], cleared⟩ (List.Subset.refl _))

theorem moment_continues_act (s : Session) (a : Action) : s.moment.Continues (s.act a).moment := by
  cases a with
  | load text =>
    simp only [act, load]
    cases parsed : Project.parse text with
    | error e => exact .refl s.moment
    | ok project => exact continues_of_subset ⟨[.clear], rfl⟩ (List.nil_subset _)
  | setScripts id canvas =>
    simp only [act]
    cases edited : s.setScripts id canvas with
    | error e => exact .refl s.moment
    | ok s' =>
      obtain ⟨scene, -, rfl⟩ := setScripts_eq_ok edited
      exact continues_of_subset ⟨[], rfl⟩ (List.Subset.refl _)
  | start settings =>
    exact (s.moment_continues_opened settings).trans (s.records_start settings).continues
  | stop => exact s.moment_continues_stop
  | tick dt =>
    by_cases running : s.isRunning = true
    · have worked := (s.records_tickToStop dt).continues
      simp only [act]
      rw [tick_eq running]
      split
      · exact worked
      · exact worked.trans (moment_continues_stop _)
    · simp only [act, Session.tick, if_neg running]
      exact .refl s.moment
  | edit change => exact (Does.edits change).records.continues
  | receive event => exact (Does.receives event).records.continues
  | dispatch event target => exact (Does.dispatches event target).records.continues
  | removeObject id => exact (Does.removes id).records.continues
  | drainNotices => exact Does.drains.records.continues
  | resize width height => exact (Does.resizes width height).records.continues

theorem moment_continues_actAll (s : Session) (actions : List Action) :
    s.moment.Continues (s.actAll actions).moment := by
  induction actions generalizing s with
  | nil => exact .refl s.moment
  | cons a rest ih => exact (s.moment_continues_act a).trans (ih (s.act a))

theorem follows_ofConfig (config : Config) : (ofConfig config).moment.Follows [] :=
  ⟨rfl, by simp [moment, ofConfig]⟩

/-- The numbers of effects are never used again, whatever a registry is asked for from its creation
on. The records stand in the order of their numbers, below the next one. That next one belongs to no
effect ever started and to no record that was there at any time. Once there is no record with the
number of an effect that was started, there is none for ever. So a task that waits for an effect
sleeps exactly as long as the record of that effect lives, and no later one holds it up.
The registry of a session has such a history over all its runs, and what its tasks wait for are
glides of their own objects that were started in it. -/
theorem record_numbers_never_reused (calls : List Call) (config : Config)
    (past future : List Action) :
    let r := history calls
    ((r.records.map (·.id.number)).Pairwise (· < ·) ∧
      ∀ record ∈ r.records, record.id.number < r.nextId) ∧
    (∀ target effect, let id := (r.add target effect).1
      (∀ record, Started {} calls record → record.id ≠ id) ∧
      ∀ earlier, earlier <+: calls → ∀ record ∈ (history earlier).records, record.id ≠ id) ∧
    (∀ earlier later, calls = earlier ++ later → ∀ record, Started {} earlier record →
      (history earlier).contains record.id = false → r.contains record.id = false) ∧
    (∀ record, Started {} calls record → ∀ (t : Task) (w : World), t.wake = .effect record.id →
      w.effects = r → ((t.wakes w).1 = false ↔ ∃ live ∈ r.records, record.Becomes live)) ∧
    ∃ before later, let s := (ofConfig config).actAll past
      s.world.effects = history before ∧
      (s.actAll future).world.effects = history (before ++ later) ∧
      ∀ t ∈ s.scheduler.tasks, ∀ id, t.wake = .effect id → ∃ start finish duration,
        Started {} before ⟨id, t.owner, 0, .glide start finish duration⟩ := by
  intro r
  have ordered := Registry.ordered_history calls
  obtain ⟨before, now⟩ :=
    (ofConfig config).moment_continues_actAll past [] (follows_ofConfig config)
  obtain ⟨more, later⟩ := moment_continues_actAll _ future ([] ++ before) now
  refine ⟨⟨ordered.increasing, ordered.bounded⟩, fun target effect =>
    ⟨fun record started same => ?_, fun earlier before record there =>
      Registry.ne_of_mem_history before there target effect⟩, ?_, ?_,
    ⟨_, more, now.effects, later.effects, now.owned⟩⟩
  · have used := started.id_lt
    rw [same] at used
    exact Nat.lt_irrefl _ used
  · rintro earlier later rfl record started gone
    exact Registry.contains_history started gone later
  · intro record started t w waits here
    rw [t.asleep_iff started waits here, here]

section Example

/-- A glide is stopped and another one started, which the task of the first does not wait for. And
in a session a task waits for its glide. -/
theorem second_glide_holds_nobody_up :
    let glide : Effect := .glide .up ⟨0, 0, 0⟩ 1
    let first : EffectRecord := ⟨⟨0⟩, ⟨1⟩, 0, glide⟩
    let calls : List Call := [.add ⟨1⟩ glide, .removeObject ⟨1⟩, .add ⟨1⟩ glide]
    let t : Task := ⟨0, ⟨1⟩, [.sequence [halt]], .effect ⟨0⟩⟩
    let w : World := { World.ofConfig {} with effects := history calls }
    Started {} (calls.take 2) first ∧ (history (calls.take 2)).contains ⟨0⟩ = false ∧
      (history calls).contains ⟨0⟩ = false ∧ (t.wakes w).1 = true ∧
      ((ofConfig {}).actAll [.edit fun _ => glider, .start {}]).scheduler.tasks = [t] ∧
      ∃ before start finish duration, gliding.world.effects = history before ∧
        Started {} before ⟨⟨0⟩, ⟨1⟩, 0, .glide start finish duration⟩ := by
  intro glide first calls t w
  have started : (ofConfig {}).actAll [.edit fun _ => glider, .start {}] = gliding :=
    start_glider.1
  have tasks : gliding.scheduler.tasks = [t] := rfl
  have early : Started {} (calls.take 2) first := ⟨[], ⟨1⟩, glide, [.removeObject ⟨1⟩], rfl, rfl⟩
  have gone : (history (calls.take 2)).contains ⟨0⟩ = false := rfl
  obtain ⟨-, -, stays, sleeps, before, later, known, -, own⟩ :=
    record_numbers_never_reused calls {} [.edit fun _ => glider, .start {}] [.stop]
  have never : (history calls).contains ⟨0⟩ = false :=
    stays (calls.take 2) (calls.drop 2) rfl first early gone
  have awake : (t.wakes w).1 = true := by
    rw [← Bool.not_eq_false, sleeps first (early.append (calls.drop 2)) t w rfl rfl]
    rintro ⟨live, there, becomes⟩
    have second : live = ⟨⟨1⟩, ⟨1⟩, 0, glide⟩ := List.mem_singleton.1 there
    have same := becomes.id
    rw [second] at same
    exact absurd same (by decide)
  rw [started] at known own ⊢
  obtain ⟨start, finish, duration, mine⟩ := own t (by simp [tasks]) ⟨0⟩ rfl
  exact ⟨early, gone, never, awake, tasks, before, start, finish, duration, known, mine⟩

end Example

end Session
end BlockStage
