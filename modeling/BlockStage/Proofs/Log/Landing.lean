import BlockStage.Proofs.Log.Glides

/-! Where a glide ends. Only a step of the animation can end it as long as nobody stops it, and that
step puts its object on the goal, where it stays until something else moves it. -/

namespace BlockStage

namespace Glide

def Drives (g : Glide) (record : EffectRecord) : Prop :=
  record.target = g.object ∧ ∃ start duration, record.effect = .glide start g.goal duration

structure Recorded (g : Glide) (r : Registry) : Prop where
  used : g.record.number < r.nextId
  only : ∀ record ∈ r.records, record.id = g.record → g.Drives record

def Arrived (g : Glide) (scene : Scene) : Prop :=
  ∃ o, scene.find? g.object = some o ∧ o.position = g.goal

/-- In an animation step of the world, the glide's record comes to its end, and sets the object's
position to the goal as it does. -/
def LandsIn (g : Glide) (dt : Float32) (w : World) : Prop :=
  (w.stepEffects dt).effects.contains g.record = false ∧
  ∃ before record after, w.effects.records = before ++ record :: after ∧ record.id = g.record ∧
    let view : StepView := ⟨dt, w.player.position, w.config.gravity⟩
    let (scene, kept) := Registry.stepRecord view record (Registry.stepAll view before w.scene).1
    kept = none ∧ g.Arrived scene

end Glide

variable {g : Glide} {d : Deed} {r r' : Registry} {w w' : World}

theorem Glide.Recorded.of_continued (recorded : g.Recorded r) (h : r.Continued r') :
    g.Recorded r' where
  used := Nat.lt_of_lt_of_le recorded.used h.nextId_le
  only record' there same := by
    rcases h.origin record' there with ⟨record, there, becomes⟩ | ⟨new, -⟩
    · obtain ⟨target, start, duration, effect⟩ :=
        recorded.only record there (becomes.id.symm.trans same)
      exact ⟨becomes.target.trans target, start, duration, becomes.glide _ _ _ effect⟩
    · exact absurd (same ▸ new) (Nat.not_le.2 recorded.used)

theorem Deed.StartsGlide.recorded (h : d.StartsGlide g) (bounded : d.world.effects.Bounded)
    (task : Nat) :
    g.Recorded (Happening.does task d).outcome.effects ∧
      (Happening.does task d).outcome.effects.contains g.record = true := by
  obtain ⟨i, o, start, duration, executes, -, -, record, execute⟩ := h.execute {}
  have added : (Happening.does task d).outcome.effects =
      (d.world.effects.add g.object (.glide start g.goal duration)).2 := by
    simp only [Happening.outcome, executes, execute]
    rfl
  refine ⟨⟨h.record_lt task, fun record' there same => ?_⟩, ?_⟩
  · rw [added] at there
    rcases List.mem_append.1 there with old | new
    · refine absurd (bounded record' old) ?_
      simp [same, record]
    · rw [List.mem_singleton.1 new]
      exact ⟨rfl, start, duration, rfl⟩
  · simp [added, Registry.add, Registry.contains, record]

/-! ### What ends a glide -/

/-- The effects of the object are stopped, or it is taken away, or it is not there to be moved. -/
inductive Happening.Disturbs (id : ObjectId) : Happening → Prop
  | stopEffects {i : Instruction} (task : Nat) (w : World) (command : i.command = .stopEffects) :
      Disturbs id (.does task ⟨id, .executes i, w⟩)
  | destroy {i : Instruction} (task : Nat) (w : World) (command : i.command = .destroy) :
      Disturbs id (.does task ⟨id, .executes i, w⟩)
  | remove (w : World) : Disturbs id (.removes id w)
  | absent (dt : Float32) {w : World} (gone : id ∉ w.scene.ids) : Disturbs id (.animates dt w)

theorem Glide.Recorded.contains_of_kept (recorded : g.Recorded r)
    (live : r.contains g.record = true)
    (kept : ∀ record ∈ r.records, g.Drives record → record ∈ r'.records) :
    r'.contains g.record = true := by
  simp only [Registry.contains, List.any_eq_true, decide_eq_true_eq] at live ⊢
  obtain ⟨record, there, same⟩ := live
  exact ⟨record, kept record there (recorded.only record there same), same⟩

theorem Glide.Drives.mem_removeObject {record : EffectRecord} (drives : g.Drives record)
    (there : record ∈ r.records) {id : ObjectId} (other : id ≠ g.object) :
    record ∈ (r.removeObject id).records := by
  refine List.mem_filter.2 ⟨there, ?_⟩
  rw [drives.1]
  simpa using other.symm

/-- Unless it is disturbed, a glide goes on through everything but a step of the animation. -/
theorem Happening.animates_of_ends {x : Happening} (recorded : g.Recorded x.world.effects)
    (live : x.world.effects.contains g.record = true)
    (spent : x.outcome.effects.contains g.record = false) (calm : ¬ x.Disturbs g.object) :
    ∃ dt w, x = .animates dt w := by
  have survives (kept : ∀ record ∈ x.world.effects.records, g.Drives record →
      record ∈ x.outcome.effects.records) : False := by
    rw [recorded.contains_of_kept live kept] at spent
    contradiction
  cases x with
  | does task deed =>
    obtain ⟨owner, act, w⟩ := deed
    refine (survives fun record there drives => ?_).elim
    cases act with
    | starts frame => exact there
    | checks condition => exact there
    | executes i =>
      have affects := i.affects_execute owner {} w
      generalize command : i.command = c at affects
      simp only [outcome]
      cases affects with
      | leave _ _ effects => exact effects ▸ there
      | change _ _ _ _ _ effects => exact effects ▸ there
      | spawn _ _ _ _ effects => exact effects ▸ there
      | start _ _ _ effects => exact effects ▸ List.mem_append_left _ there
      | stopParticles _ effects =>
        obtain ⟨-, start, duration, effect⟩ := drives
        rw [effects]
        exact List.mem_filter.2 ⟨there, by simp [effect, Effect.hasParticles]⟩
      | stopEffects _ effects =>
        rw [effects]
        refine drives.mem_removeObject there fun same => calm ?_
        exact same ▸ .stopEffects task w command
      | destroy _ effects =>
        rw [effects]
        refine drives.mem_removeObject there fun same => calm ?_
        exact same ▸ .destroy task w command
  | animates dt w => exact ⟨dt, w, rfl⟩
  | removes id w =>
    refine (survives fun record there drives => ?_).elim
    simp only [outcome, World.removeObject]
    split
    · exact drives.mem_removeObject there fun same => calm (same ▸ .remove w)
    · exact there
  | edits scene w => exact (survives fun record there _ => there).elim

/-! ### The step that ends it -/

namespace Registry

variable {view : StepView} {record : EffectRecord} {scene : Scene}

theorem stepAll_append (view : StepView) (before after : List EffectRecord) (scene : Scene) :
    stepAll view (before ++ after) scene =
      ((stepAll view after (stepAll view before scene).1).1,
        (stepAll view before scene).2 ++
          (stepAll view after (stepAll view before scene).1).2) := by
  induction before generalizing scene with
  | nil => rfl
  | cons record before ih => simp only [List.cons_append, stepAll, ih, List.append_assoc]

theorem arrived_of_stepRecord (drives : g.Drives record) (present : g.object ∈ scene.ids)
    (spent : (stepRecord view record scene).2 = none) :
    g.Arrived (stepRecord view record scene).1 := by
  obtain ⟨target, start, duration, effect⟩ := drives
  obtain ⟨o, found⟩ := Option.ne_none_iff_exists'.1 fun none =>
    (scene.find?_eq_none_iff g.object).1 none present
  have named : o.id = g.object := by simpa using List.find?_some found
  simp only [stepRecord, target, found, effect, Effect.step] at spent ⊢
  split at spent
  · rename_i arrives
    rw [if_pos arrives]
    refine ⟨{ o with position := g.goal }, ?_, rfl⟩
    rw [Scene.find?_modify_self scene g.object (by exact fun _ _ => named), found]
    rfl
  · simp at spent

theorem landsIn_of_ends {dt : Float32} (recorded : g.Recorded w.effects)
    (live : w.effects.contains g.record = true) (present : g.object ∈ w.scene.ids)
    (spent : (w.stepEffects dt).effects.contains g.record = false) : g.LandsIn dt w := by
  simp only [contains, List.any_eq_true, decide_eq_true_eq] at live
  obtain ⟨record, there, same⟩ := live
  obtain ⟨before, after, split⟩ := List.append_of_mem there
  have stepped : (stepRecord ⟨dt, w.player.position, w.config.gravity⟩ record
      (stepAll ⟨dt, w.player.position, w.config.gravity⟩ before w.scene).1).2 = none := by
    refine Option.eq_none_iff_forall_not_mem.2 fun kept hk => ?_
    have left : kept ∈ (w.stepEffects dt).effects.records := by
      simp only [World.stepEffects, step, split, stepAll_append]
      exact List.mem_append_right _ (List.mem_append_left _ (Option.mem_toList.2 hk))
    simp only [contains, List.any_eq_false, decide_eq_true_eq] at spent
    exact spent kept left ((becomes_of_stepRecord hk).id.trans same)
  refine ⟨spent, before, record, after, split, same, stepped, ?_⟩
  refine arrived_of_stepRecord (recorded.only record there same) ?_ stepped
  rwa [(ids_stepAll _ before w.scene).1]

end Registry

namespace Glide

theorem lands {log : Log} (trace : Trace w log w') (recorded : g.Recorded w.effects)
    (live : w.effects.contains g.record = true) (spent : w'.effects.contains g.record = false)
    (calm : ∀ x ∈ log, ¬ x.Disturbs g.object) :
    ∃ dt u, .animates dt u ∈ log ∧ g.LandsIn dt u := by
  induction log generalizing w with
  | nil => simp [trace.effects, live] at spent
  | cons x rest ih =>
    obtain ⟨same, later⟩ := trace
    rw [List.forall_mem_cons] at calm
    rw [← same.effects] at recorded live
    cases going : x.outcome.effects.contains g.record with
    | true =>
      obtain ⟨dt, u, there, lands⟩ := ih later (recorded.of_continued x.continued) going calm.2
      exact ⟨dt, u, List.mem_cons_of_mem x there, lands⟩
    | false =>
      obtain ⟨dt, u, rfl⟩ := Happening.animates_of_ends recorded live going calm.1
      have present : g.object ∈ u.scene.ids :=
        Decidable.byContradiction fun gone => calm.1 (.absent dt gone)
      exact ⟨dt, u, List.mem_cons_self, Registry.landsIn_of_ends recorded live present going⟩

end Glide

/-! ### Where the object is afterwards -/

/-- Something else than the glide has a hand in where its object is. -/
inductive Happening.Interferes (g : Glide) : Happening → Prop
  | places {i : Instruction} (task : Nat) (w : World) (command : i.command.Places) :
      Interferes g (.does task ⟨g.object, .executes i, w⟩)
  | animates {record : EffectRecord} (dt : Float32) {w : World} (there : record ∈ w.effects.records)
      (target : record.target = g.object) (other : record.id ≠ g.record) :
      Interferes g (.animates dt w)
  | edits {scene : Scene} {w : World}
      (moved : (scene.find? g.object).map (·.position) ≠
        (w.scene.find? g.object).map (·.position)) :
      Interferes g (.edits scene w)

namespace Registry

variable {view : StepView} {scene : Scene}

theorem arrived_of_stepAll {records : List EffectRecord}
    (only : ∀ record ∈ records, record.id = g.record → g.Drives record)
    (alone : ∀ record ∈ records, record.target = g.object → record.id = g.record)
    (spent : ∀ record ∈ (stepAll view records scene).2, record.id ≠ g.record)
    (present : g.object ∈ scene.ids)
    (settled : (∃ record ∈ records, record.id = g.record) ∨ g.Arrived scene) :
    g.Arrived (stepAll view records scene).1 := by
  induction records generalizing scene with
  | nil => exact settled.resolve_left (by simp)
  | cons record rest ih =>
    rw [List.forall_mem_cons] at only alone
    simp only [stepAll, List.forall_mem_append, Option.mem_toList] at spent
    have settled' : (∃ record ∈ rest, record.id = g.record) ∨
        g.Arrived (stepRecord view record scene).1 := by
      by_cases own : record.id = g.record
      · refine .inr (arrived_of_stepRecord (only.1 own) present ?_)
        exact Option.eq_none_iff_forall_not_mem.2 fun kept hk =>
          spent.1 kept hk ((becomes_of_stepRecord hk).id.trans own)
      · rcases settled with ⟨record', there, same⟩ | arrived
        · rcases List.mem_cons.1 there with rfl | later
          · exact absurd same own
          · exact .inl ⟨record', later, same⟩
        · have other : g.object ≠ record.target := fun same => own (alone.1 same.symm)
          rw [Glide.Arrived, ← find?_stepRecord view record scene other] at arrived
          exact .inr arrived
    exact ih only.2 alone.2 spent.2 ((ids_stepRecord view record scene).1 ▸ present) settled'

end Registry

theorem Happening.arrived {x : Happening} (recorded : g.Recorded x.world.effects)
    (settled : x.world.effects.contains g.record = false → g.Arrived x.world.scene)
    (calm : ¬ x.Disturbs g.object) (alone : ¬ x.Interferes g)
    (spent : x.outcome.effects.contains g.record = false) : g.Arrived x.outcome.scene := by
  -- What is no step of the animation comes after the end of the glide.
  have ended (other : ∀ dt w, x ≠ .animates dt w) : g.Arrived x.world.scene := by
    refine settled (Bool.eq_false_iff.2 fun live => ?_)
    obtain ⟨dt, w, same⟩ := x.animates_of_ends recorded live spent calm
    exact other dt w same
  cases x with
  | does task deed =>
    obtain ⟨owner, act, w⟩ := deed
    obtain ⟨o, found, position⟩ := ended (by simp)
    cases act with
    | starts frame => exact ⟨o, found, position⟩
    | checks condition => exact ⟨o, found, position⟩
    | executes i =>
      obtain ⟨o', found', same⟩ := (i.affects_execute owner {} w).keeps_position found fun own =>
        ⟨fun places => alone (own ▸ .places task w places),
          fun destroy => calm (own ▸ .destroy task w destroy)⟩
      exact ⟨o', found', same.trans position⟩
  | animates dt w =>
    have present : g.object ∈ w.scene.ids :=
      Decidable.byContradiction fun gone => calm (.absent dt gone)
    have none : ∀ record ∈ (w.stepEffects dt).effects.records, record.id ≠ g.record := by
      simpa [outcome, Registry.contains] using spent
    refine Registry.arrived_of_stepAll recorded.only (fun record there target => ?_) none present ?_
    · exact Decidable.byContradiction fun other => alone (.animates dt there target other)
    · cases live : w.effects.contains g.record with
      | false => exact .inr (settled live)
      | true =>
        left
        simpa [Registry.contains] using live
  | removes id w =>
    obtain ⟨o, found, position⟩ := ended (by simp)
    have other : id ≠ g.object := fun same => calm (same ▸ .remove w)
    simp only [outcome, World.removeObject]
    split
    · exact ⟨o, (Scene.find?_despawn_of_ne _ other).trans found, position⟩
    · exact ⟨o, found, position⟩
  | edits scene w =>
    obtain ⟨o, found, position⟩ := ended (by simp)
    have unmoved : (scene.find? g.object).map (·.position) =
        (w.scene.find? g.object).map (·.position) :=
      Classical.byContradiction fun moved => alone (.edits moved)
    have there : (w.scene.find? g.object).map (·.position) = some g.goal :=
      Option.map_eq_some_iff.2 ⟨o, found, position⟩
    exact Option.map_eq_some_iff.1 (unmoved.trans there)

namespace Glide

/-- The object of a glide that nothing interferes with is on the goal once the glide is over. -/
theorem arrives {log : Log} (trace : Trace w log w') (recorded : g.Recorded w.effects)
    (settled : w.effects.contains g.record = false → g.Arrived w.scene)
    (calm : ∀ x ∈ log, ¬ x.Disturbs g.object) (alone : ∀ x ∈ log, ¬ x.Interferes g)
    (spent : w'.effects.contains g.record = false) : g.Arrived w'.scene := by
  induction log generalizing w with
  | nil =>
    rw [trace.effects] at spent
    exact trace.scene ▸ settled spent
  | cons x rest ih =>
    obtain ⟨same, later⟩ := trace
    rw [List.forall_mem_cons] at calm alone
    rw [← same.effects] at recorded settled
    rw [← same.scene] at settled
    exact ih later (recorded.of_continued x.continued)
      (x.arrived recorded settled calm.1 alone.1) calm.2 alone.2

end Glide

end BlockStage
