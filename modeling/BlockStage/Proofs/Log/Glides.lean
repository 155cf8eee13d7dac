import BlockStage.Proofs.Log.Traces
import BlockStage.Proofs.Run.Effects
import BlockStage.Proofs.Run.Roster

/-! A task that starts a glide does nothing more until the record of the glide is over. Its number
and that of the record are never given to another task or effect. -/

namespace BlockStage

namespace Scalar

open Float.Model (UnpackedFloat)

theorem unpacked_le_zero {x : UnpackedFloat} (h : UnpackedFloat.lt (.zero .positive) x = true) :
    x.le (.zero .positive) = false := by
  cases x with
  | notANumber => rfl
  | infinity sign =>
    cases sign with
    | positive => rfl
    | negative => exact absurd h (by decide)
  | zero sign => exact absurd h (by cases sign <;> decide)
  | finite sign significand exponent positive =>
    cases sign with
    | positive => rfl
    | negative => exact absurd h Bool.false_ne_true

theorem not_le_zero_of_pos {x : Float} (h : 0 < x) : ¬ x ≤ 0 := by
  have zero : (Float.toModel 0).unpack = .zero .positive := rfl
  have less : (Float.toModel 0).unpack.lt x.toModel.unpack = true := of_decide_eq_true h
  intro le
  have le : x.toModel.unpack.le (Float.toModel 0).unpack = true := of_decide_eq_true le
  rw [zero] at less le
  exact absurd (le.symm.trans (unpacked_le_zero less)) (by simp)

end Scalar

/-- A glide under way: its record, its object and where that is to end up. -/
structure Glide where
  record : RecordId
  object : ObjectId
  goal : Vec3

/-- The deed starts the glide. It takes time, and its object is there. -/
inductive Deed.StartsGlide : Deed → Glide → Prop
  | intro {i : Instruction} {target : Vec3} {seconds : Float} {relative : Bool} {w : World}
      {o : SceneObject} (owner : ObjectId) (command : i.command = .glide target seconds relative)
      (takes_time : 0 < seconds) (there : w.scene.find? owner = some o) :
      StartsGlide ⟨owner, .executes i, w⟩
        ⟨⟨w.effects.nextId⟩, owner, if relative then o.position + target else target⟩

variable {d : Deed} {g : Glide} {program : Program} {owner : ObjectId} {w w' : World}

theorem Deed.StartsGlide.execute (h : d.StartsGlide g) (program : Program) :
    ∃ i o start duration, d.act = .executes i ∧ d.world.scene.find? g.object = some o ∧
      d.owner = g.object ∧ g.record = ⟨d.world.effects.nextId⟩ ∧
      i.execute d.owner program d.world = (.suspend (.effect g.record),
        (d.world.addEffect g.object (.glide start g.goal duration)).2) := by
  cases h with
  | @intro i target seconds relative w o owner command takes_time there =>
    refine ⟨i, o, o.position, Scalar.narrow seconds, rfl, there, rfl, rfl, ?_⟩
    simp only [Instruction.execute, command, World.glide, there,
      if_neg (Scalar.not_le_zero_of_pos takes_time)]
    rfl

theorem Deed.StartsGlide.executes (h : d.StartsGlide g) : ∃ i, d.act = .executes i := by
  cases h
  exact ⟨_, rfl⟩

/-! ### Drives -/

theorem exists_of_append_eq {α : Type} {l l' before after : List α} {x : α}
    (h : l ++ l' = before ++ x :: after) (other : x ∉ l) :
    ∃ between, before = l ++ between ∧ l' = between ++ x :: after := by
  rcases List.append_eq_append_iff.1 h with ⟨between, rfl, later⟩ | ⟨rest, rfl, later⟩
  · exact ⟨between, rfl, later⟩
  · cases rest with
    | nil => exact ⟨[], by simp, later.symm⟩
    | cons y rest =>
      obtain ⟨rfl, -⟩ := List.cons.inj later
      exact absurd (List.mem_append_right before List.mem_cons_self) other

namespace Task

theorem stepDeeds_eq_nil_or_singleton (owner : ObjectId) (frames : List Frame) (w : World) :
    stepDeeds owner frames w = [] ∨ ∃ d, stepDeeds owner frames w = [d] := by
  unfold stepDeeds
  split
  · exact .inl rfl
  · split
    · rename_i top below ready
      cases top.act? with
      | none => exact .inl rfl
      | some act => exact .inr ⟨_, rfl⟩
    · exact .inl rfl

theorem step_glide {frames : List Frame} (does : d ∈ stepDeeds owner frames w)
    (glides : d.StartsGlide g) (program : Program) :
    ∃ left w', step program owner frames w = (.suspend left (.effect g.record), w') := by
  unfold stepDeeds at does
  split at does
  · simp at does
  · rename_i top below
    split at does
    · rename_i ready
      obtain ⟨act, asked, rfl⟩ := Option.map_eq_some_iff.1 (Option.mem_toList.1 does)
      obtain ⟨i, o, start, duration, rfl, -, -, -, execute⟩ := glides.execute program
      obtain ⟨rest, rfl⟩ := Frame.eq_sequence_of_act? asked
      refine ⟨.sequence rest :: below,
        (w.addEffect g.object (.glide start g.goal duration)).2, ?_⟩
      rw [step, if_pos ready]
      simp only [stepTop, Frame.advance, execute, Move.ofFlow]
    · simp at does

theorem suspended_of_glide {frames : List Frame} {before after : List Deed}
    (h : deeds program owner frames w = before ++ d :: after) (glides : d.StartsGlide g)
    (q : Queue Frame) :
    after = [] ∧
      ∃ left, (drive program owner frames q w).suspended = some (left, .effect g.record) := by
  fun_induction drive program owner frames q w generalizing before with
  | case1 frames q w frames' w' move ih =>
    have other : d ∉ stepDeeds owner frames w := fun does => by
      obtain ⟨left, w'', halt⟩ := step_glide does glides program
      simp [halt] at move
    rw [deeds_go move] at h
    obtain ⟨between, -, later⟩ := exists_of_append_eq h other
    exact ih later
  | case2 frames q w frames' frame w' move ih =>
    have other : d ∉ stepDeeds owner frames w := fun does => by
      obtain ⟨left, w'', halt⟩ := step_glide does glides program
      simp [halt] at move
    rw [deeds_spawn move] at h
    obtain ⟨between, -, later⟩ := exists_of_append_eq h other
    exact ih later
  | case3 frames q w frames' wake w' move =>
    rw [deeds_halt move rfl] at h
    have does : d ∈ stepDeeds owner frames w := by simp [h]
    obtain ⟨left, w'', halt⟩ := step_glide does glides program
    obtain ⟨same, rfl⟩ := Prod.mk.inj (move.symm.trans halt)
    obtain ⟨rfl, rfl⟩ := Move.suspend.inj same
    refine ⟨?_, frames', rfl⟩
    rcases stepDeeds_eq_nil_or_singleton owner frames w with none | ⟨d', single⟩
    · simp [none] at does
    · rw [single] at h
      exact (List.append_eq_singleton_iff.1 h.symm).elim (by simp) (by simp)
  | case4 frames q w w' move =>
    rw [deeds_halt move rfl] at h
    have does : d ∈ stepDeeds owner frames w := by simp [h]
    obtain ⟨left, w'', halt⟩ := step_glide does glides program
    simp [halt] at move

end Task

/-! ### Effects along a log -/

theorem Happening.continued (x : Happening) : x.world.effects.Continued x.outcome.effects := by
  cases x with
  | does task deed =>
    obtain ⟨owner, act, w⟩ := deed
    cases act with
    | executes i => exact (i.affects_execute owner {} w).continued
    | starts frame => exact .refl w.effects
    | checks condition => exact .refl w.effects
  | animates dt w => exact w.effects.continued_step _ w.scene
  | removes id w => exact w.continued_removeObject id
  | edits scene w => exact .refl w.effects

namespace Trace

variable {log : Log}

theorem continued (h : Trace w log w') : w.effects.Continued w'.effects := by
  induction log generalizing w with
  | nil => exact h.effects ▸ .refl w.effects
  | cons x rest ih =>
    obtain ⟨same, later⟩ := h
    rw [← same.effects]
    exact x.continued.trans (ih later)

theorem continued_of_mem (h : Trace w log w') {x : Happening} (there : x ∈ log) :
    w.effects.Continued x.world.effects := by
  obtain ⟨before, after, rfl⟩ := List.append_of_mem there
  obtain ⟨w₁, first, same, -⟩ := h.split
  rw [same.effects]
  exact first.continued

end Trace

theorem Deed.StartsGlide.record_lt (h : d.StartsGlide g) (task : Nat) :
    g.record.number < (Happening.does task d).outcome.effects.nextId := by
  obtain ⟨i, o, start, duration, executes, -, -, record, execute⟩ := h.execute {}
  simp only [Happening.outcome, executes, execute, record]
  exact Nat.lt_succ_self _

/-! ### Episodes -/

namespace Scheduler

variable {t t' : Task}

/-- Where there is room for it, a new task stands behind the others as far as its first drive leaves
something of it. -/
theorem startNext_eq {s : Scheduler} (room : ¬ w.config.mostTasks ≤ s.tasks.length)
    (program : Program) (owner : ObjectId) (frame : Frame) (waiting : Queue Frame) :
    (startNext program owner frame waiting s w).2.1 =
      ⟨s.tasks ++ ((Task.drive program owner [frame] waiting w).suspended.map
        fun (frames, wake) => ⟨s.nextId, owner, frames, wake⟩).toList, s.nextId + 1⟩ := by
  simp only [startNext, if_neg room]
  split
  · rename_i suspended
    simp [suspended]
  · rename_i suspended
    simp [suspended]

theorem mem_startNext {s : Scheduler} {frame : Frame} {waiting : Queue Frame}
    (h : t ∈ (startNext program owner frame waiting s w).2.1.tasks) :
    t ∈ s.tasks ∨ t.id = s.nextId := by
  by_cases room : w.config.mostTasks ≤ s.tasks.length
  · rw [startNext, if_pos room] at h
    exact .inl h
  · rw [startNext_eq room] at h
    refine (List.mem_append.1 h).imp_right fun new => ?_
    obtain ⟨_, -, rfl⟩ := Option.map_eq_some_iff.1 (Option.mem_toList.1 new)
    rfl

theorem not_startsGlide_of_polls (h : d ∈ pollDeeds t w) : ¬ d.StartsGlide g := by
  unfold pollDeeds at h
  split at h
  · split at h
    · simp at h
    · rintro glides
      obtain ⟨i, executes⟩ := glides.executes
      simp [List.mem_singleton.1 h] at executes
  · simp at h

theorem id_of_visit (h : (visit program t w).1 = some t') : t'.id = t.id := by
  unfold visit at h
  split at h
  · split at h
    · rw [← Option.some.inj h]
    · obtain ⟨⟨frames, wake⟩, -, rfl⟩ := Option.map_eq_some_iff.1 h
      rfl
  · contradiction

theorem visit_of_waiting {record : RecordId} (waits : t.wake = .effect record)
    (live : w.effects.contains record = true) (program : Program) :
    visitLog program t w = [] ∧
      ∀ t', (visit program t w).1 = some t' → t'.wake = .effect record := by
  have asleep : t.wakes w = (false, .effect record, w) := by simp [Task.wakes, waits, live]
  constructor
  · simp [visitLog, visitDeeds, pollDeeds, waits, asleep]
  · intro t' h
    unfold visit at h
    split at h
    · rw [asleep] at h
      rw [← Option.some.inj h]
    · contradiction

theorem startNext_of_glide {s : Scheduler} {frame : Frame} {before after : List Deed}
    (deeds : nextDeeds program owner frame s w = before ++ d :: after) (glides : d.StartsGlide g)
    (waiting : Queue Frame) :
    after = [] ∧ ∃ frames, (startNext program owner frame waiting s w).2.1 =
      ⟨s.tasks ++ [⟨s.nextId, owner, frames, .effect g.record⟩], s.nextId + 1⟩ := by
  unfold nextDeeds at deeds
  split at deeds
  · simp at deeds
  · rename_i room
    have other : d ∉ [⟨owner, .starts frame, w⟩] := fun start => by
      obtain ⟨i, executes⟩ := glides.executes
      simp [List.mem_singleton.1 start] at executes
    obtain ⟨between, -, drive⟩ := exists_of_append_eq deeds other
    obtain ⟨rfl, frames, suspended⟩ := Task.suspended_of_glide drive glides waiting
    refine ⟨rfl, frames, ?_⟩
    rw [startNext_eq room, suspended]
    rfl

theorem visit_of_glide {before after : List Deed}
    (deeds : visitDeeds program t w = before ++ d :: after) (glides : d.StartsGlide g) :
    after = [] ∧
      ∃ frames, (visit program t w).1 = some { t with frames, wake := .effect g.record } := by
  unfold visitDeeds at deeds
  split at deeds
  · rename_i there
    obtain ⟨between, -, drive⟩ := exists_of_append_eq deeds
      fun polls => not_startsGlide_of_polls polls glides
    rcases woken : t.wakes w with ⟨_ | _, wake, w'⟩
    · simp [woken] at drive
    · simp only [woken] at drive
      obtain ⟨rfl, frames, suspended⟩ := Task.suspended_of_glide drive glides {}
      refine ⟨rfl, frames, ?_⟩
      simp only [visit, there, if_true, woken, suspended, Option.map_some]
  · simp at deeds

end Scheduler

namespace Moment

/-- Tasks and records have numbers that were handed out, each task one of its own. -/
structure Numbered (m : Moment) : Prop where
  distinct : (m.1.tasks.map (·.id)).Nodup
  below : ∀ t ∈ m.1.tasks, t.id < m.1.nextId
  records : m.2.effects.Bounded

structure Awaits (task : Nat) (record : RecordId) (m : Moment) : Prop where
  task_lt : task < m.1.nextId
  record_lt : record.number < m.2.effects.nextId
  waits : m.2.effects.contains record = true →
    ∀ t ∈ m.1.tasks, t.id = task → t.wake = .effect record

end Moment

namespace Episode

variable {m m' : Moment} {log : Log} {task : Nat} {record : RecordId}

theorem numbered (h : Episode m log m') (numbered : m.Numbered) : m'.Numbered := by
  have records := h.trace.continued.bounded numbered.records
  cases h with
  | start program owner frame waiting s w =>
    by_cases room : w.config.mostTasks ≤ s.tasks.length
    · rwa [Scheduler.startNext, if_pos room]
    · refine ⟨?_, ?_, records⟩ <;> rw [Scheduler.startNext_eq room] <;>
        cases (Task.drive program owner [frame] waiting w).suspended
      · simpa using numbered.distinct
      · simp only [Option.map_some, Option.toList_some, List.map_append, List.map_cons,
          List.map_nil, List.nodup_append]
        refine ⟨numbered.distinct, by simp, ?_⟩
        simp only [List.mem_map, List.mem_singleton]
        rintro _ ⟨t, ht, rfl⟩ _ rfl
        exact Nat.ne_of_lt (numbered.below t ht)
      · intro t ht
        simp only [Option.map_none, Option.toList_none, List.append_nil] at ht
        exact Nat.lt_succ_of_lt (numbered.below t ht)
      · intro t ht
        rcases List.mem_append.1 ht with old | new
        · exact Nat.lt_succ_of_lt (numbered.below t old)
        · rw [List.mem_singleton.1 new]
          exact Nat.lt_succ_self _
  | visit program before t after nextId w =>
    have left : ((before ++ (Scheduler.visit program t w).1.toList ++ after).map (·.id)).Sublist
        ((before ++ t :: after).map (·.id)) := by
      cases kept : (Scheduler.visit program t w).1 with
      | none => simp
      | some t' => simp [Scheduler.id_of_visit kept]
    refine ⟨numbered.distinct.sublist left, fun t' ht => ?_, records⟩
    obtain ⟨t'', ht'', same⟩ := List.mem_map.1 (left.subset (List.mem_map_of_mem ht))
    rw [← same]
    exact numbered.below t'' ht''
  | drop fewer nextId w =>
    exact ⟨numbered.distinct.sublist (fewer.map _),
      fun t ht => numbered.below t (fewer.subset ht), records⟩
  | animate => exact ⟨numbered.distinct, numbered.below, records⟩
  | remove => exact ⟨numbered.distinct, numbered.below, records⟩
  | edit => exact ⟨numbered.distinct, numbered.below, records⟩
  | aside => exact ⟨numbered.distinct, numbered.below, records⟩

theorem awaits (h : Episode m log m') (awaits : m.Awaits task record) :
    m'.Awaits task record ∧
      ∀ d, .does task d ∈ log → d.world.effects.contains record = false := by
  have trace := h.trace
  have record_lt := Nat.lt_of_lt_of_le awaits.record_lt trace.continued.nextId_le
  have lived (live : m'.2.effects.contains record = true) :=
    trace.continued.contains_of_contains awaits.record_lt live
  cases h with
  | start program owner frame waiting s w =>
    have later := (Scheduler.continued_startNext program owner frame waiting s w).nextId_le
    refine ⟨⟨Nat.lt_of_lt_of_le awaits.task_lt later, record_lt, fun live t ht same => ?_⟩,
      fun d hd => ?_⟩
    · rcases Scheduler.mem_startNext ht with old | new
      · exact awaits.waits (lived live) t old same
      · exact absurd (same.symm.trans new) (Nat.ne_of_lt awaits.task_lt)
    · obtain ⟨_, -, same⟩ := List.mem_map.1 hd
      exact absurd (Happening.does.inj same).1 (Nat.ne_of_gt awaits.task_lt)
  | visit program before t after nextId w =>
    refine ⟨⟨awaits.task_lt, record_lt, fun live t' ht same => ?_⟩, fun d hd => ?_⟩
    · have waits := awaits.waits (lived live)
      simp only [List.append_assoc, List.mem_append, Option.mem_toList] at ht
      rcases ht with there | kept | there
      · exact waits t' (by simp [there]) same
      · have asleep := waits t (by simp) ((Scheduler.id_of_visit kept).symm.trans same)
        exact (Scheduler.visit_of_waiting asleep (lived live) program).2 t' kept
      · exact waits t' (by simp [there]) same
    · refine Bool.eq_false_iff.2 fun live => ?_
      have before_live := (trace.continued_of_mem hd).contains_of_contains awaits.record_lt live
      obtain ⟨_, -, same⟩ := List.mem_map.1 hd
      have asleep := awaits.waits before_live t (by simp) (Happening.does.inj same).1
      rw [(Scheduler.visit_of_waiting asleep before_live program).1] at hd
      simp at hd
  | drop fewer nextId w =>
    exact ⟨⟨awaits.task_lt, record_lt, fun live t ht => awaits.waits live t (fewer.subset ht)⟩,
      by simp⟩
  | animate => exact ⟨⟨awaits.task_lt, record_lt, fun live => awaits.waits (lived live)⟩, by simp⟩
  | remove => exact ⟨⟨awaits.task_lt, record_lt, fun live => awaits.waits (lived live)⟩, by simp⟩
  | edit => exact ⟨⟨awaits.task_lt, record_lt, fun live => awaits.waits (lived live)⟩, by simp⟩
  | aside => exact ⟨⟨awaits.task_lt, record_lt, fun live => awaits.waits (lived live)⟩, by simp⟩

theorem does_of_map_eq {deeds : List Deed} {id : Nat} {before after : Log}
    (h : deeds.map (.does id) = before ++ .does task d :: after) :
    task = id ∧
      ∃ before' after', deeds = before' ++ d :: after' ∧ after = after'.map (.does id) := by
  obtain ⟨before', rest, rfl, -, later⟩ := List.map_eq_append_iff.1 h
  obtain ⟨d', after', rfl, same, rfl⟩ := List.map_eq_cons_iff.1 later
  obtain ⟨rfl, rfl⟩ := Happening.does.inj same
  exact ⟨rfl, before', after', rfl, rfl⟩

theorem awaits_of_glide (h : Episode m log m') (numbered : m.Numbered) {before after : Log}
    (at_d : log = before ++ .does task d :: after) (glides : d.StartsGlide g) :
    after = [] ∧ m'.Awaits task g.record := by
  have trace := h.trace
  rw [at_d] at trace
  obtain ⟨_, -, -, left⟩ := trace.split
  have record_lt : g.record.number < m'.2.effects.nextId :=
    Nat.lt_of_lt_of_le (glides.record_lt task) left.continued.nextId_le
  cases h with
  | start program owner frame waiting s w =>
    obtain ⟨rfl, before', after', deeds, rfl⟩ := does_of_map_eq at_d
    obtain ⟨rfl, frames, started⟩ := Scheduler.startNext_of_glide deeds glides waiting
    refine ⟨rfl, ?_, record_lt, fun _ t ht same => ?_⟩
    · rw [started]
      exact Nat.lt_succ_self _
    · rw [started] at ht
      rcases List.mem_append.1 ht with old | new
      · exact absurd same (Nat.ne_of_lt (numbered.below t old))
      · rw [List.mem_singleton.1 new]
  | visit program before t after nextId w =>
    obtain ⟨rfl, before', after', deeds, rfl⟩ := does_of_map_eq at_d
    obtain ⟨rfl, frames, kept⟩ := Scheduler.visit_of_glide deeds glides
    have distinct := numbered.distinct
    simp only [List.map_append, List.map_cons, List.nodup_append, List.nodup_cons] at distinct
    refine ⟨rfl, numbered.below t (by simp), record_lt, fun _ t' ht same => ?_⟩
    simp only [kept, Option.toList_some, List.append_assoc, List.singleton_append,
      List.mem_append, List.mem_cons] at ht
    rcases ht with earlier | rfl | later
    · exact absurd same (distinct.2.2 _ (List.mem_map_of_mem earlier) _ List.mem_cons_self)
    · rfl
    · exact absurd (same ▸ List.mem_map_of_mem later) distinct.2.1.1
  | drop => simp at at_d
  | animate => simp [List.cons_eq_append_iff] at at_d
  | remove => simp [List.cons_eq_append_iff] at at_d
  | edit => simp [List.cons_eq_append_iff] at at_d
  | aside => simp at at_d

end Episode

namespace Chronicle

variable {m m' : Moment} {log : Log} {task : Nat} {record : RecordId}

theorem numbered (h : Chronicle m log m') (numbered : m.Numbered) : m'.Numbered := by
  induction h with
  | refl => exact numbered
  | cons first _ ih => exact ih (first.numbered numbered)

theorem awaits (h : Chronicle m log m') (awaits : m.Awaits task record) :
    ∀ d, .does task d ∈ log → d.world.effects.contains record = false := by
  induction h with
  | refl => simp
  | cons first _ ih =>
    obtain ⟨awaits', none⟩ := first.awaits awaits
    intro d hd
    exact (List.mem_append.1 hd).elim (none d) (ih awaits' d)

/-- Once a task has started a glide, it does nothing as long as the record is live. -/
theorem waits_for_glide {before after : Log} (h : Chronicle m (before ++ .does task d :: after) m')
    (numbered : m.Numbered) (glides : d.StartsGlide g) :
    ∀ d', .does task d' ∈ after → d'.world.effects.contains g.record = false := by
  obtain ⟨earlier, pre, post, later, m₁, m₂, path, episode, rest, -, rfl⟩ := h.split rfl
  obtain ⟨rfl, awaits⟩ := episode.awaits_of_glide (path.numbered numbered) rfl glides
  exact rest.awaits awaits

end Chronicle
end BlockStage
