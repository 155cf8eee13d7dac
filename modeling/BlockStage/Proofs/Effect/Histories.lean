import BlockStage.Proofs.Run.Effects

/-! All that can become of a registry. Its numbers are handed out upwards and each of them once: a
record keeps its own as long as it lives, and no other record ever has it. -/

namespace BlockStage

namespace Registry

inductive Call
  | add (target : ObjectId) (effect : Effect)
  | removeObject (target : ObjectId)
  | stopParticles (target : ObjectId)
  | clear
  | step (view : StepView) (scene : Scene)

def Call.perform (r : Registry) : Call → Registry
  | add target effect => (r.add target effect).2
  | removeObject target => r.removeObject target
  | stopParticles target => r.stopParticles target
  | clear => r.clear
  | step view scene => (r.step view scene).2

def performAll (r : Registry) (calls : List Call) : Registry := calls.foldl Call.perform r

def history (calls : List Call) : Registry := performAll {} calls

variable {r r' : Registry} {calls earlier later first second : List Call} {record : EffectRecord}

@[simp] theorem performAll_append (r : Registry) (first second : List Call) :
    r.performAll (first ++ second) = (r.performAll first).performAll second :=
  List.foldl_append

theorem history_append (first second : List Call) :
    history (first ++ second) = (history first).performAll second :=
  performAll_append {} first second

theorem Call.continued_perform (r : Registry) (call : Call) : Continued r (call.perform r) := by
  cases call with
  | add target effect => exact .add r target effect
  | removeObject target => exact .removeObject r target
  | stopParticles target => exact .stopParticles r target
  | clear => exact .of_subset rfl (List.nil_subset _)
  | step view scene => exact r.continued_step view scene

theorem continued_performAll (r : Registry) (calls : List Call) :
    Continued r (r.performAll calls) := by
  induction calls generalizing r with
  | nil => exact .refl r
  | cons call rest ih => exact (call.continued_perform r).trans (ih (call.perform r))

/-! ### The order of the records -/

/-- The records stand in the order of their numbers, and the next number is new. -/
structure Ordered (r : Registry) : Prop where
  increasing : (r.records.map (·.id.number)).Pairwise (· < ·)
  bounded : r.Bounded

theorem Ordered.thin (h : r.Ordered) (left : (r'.records.map (·.id)).Sublist (r.records.map (·.id)))
    (continued : Continued r r') : r'.Ordered where
  increasing := by
    have numbers := left.map RecordId.number
    simp only [List.map_map] at numbers
    exact h.increasing.sublist numbers
  bounded := continued.bounded h.bounded

theorem Ordered.add (h : r.Ordered) (target : ObjectId) (effect : Effect) :
    (r.add target effect).2.Ordered where
  increasing := by
    simp only [Registry.add, List.map_append, List.map_cons, List.map_nil, List.pairwise_append,
      List.mem_map, List.mem_singleton]
    refine ⟨h.increasing, List.pairwise_singleton _ _, ?_⟩
    rintro _ ⟨record, there, rfl⟩ _ rfl
    exact h.bounded record there
  bounded := (Continued.add r target effect).bounded h.bounded

theorem numbers_stepAll (view : StepView) (records : List EffectRecord) (scene : Scene) :
    ((stepAll view records scene).2.map (·.id)).Sublist (records.map (·.id)) := by
  induction records generalizing scene with
  | nil => exact .slnil
  | cons record rest ih =>
    have stepped :
        ((stepRecord view record scene).2.toList.map (·.id)).Sublist [record.id] := by
      cases kept : (stepRecord view record scene).2 with
      | none => exact List.nil_sublist _
      | some kept' =>
        have same : kept'.id = record.id := (becomes_of_stepRecord kept).id
        simp [same]
    simp only [stepAll, List.map_append]
    exact stepped.append (ih _)

theorem Ordered.perform (h : r.Ordered) (call : Call) : (call.perform r).Ordered := by
  have continued := call.continued_perform r
  cases call with
  | add target effect => exact h.add target effect
  | removeObject target => exact h.thin (List.filter_sublist.map _) continued
  | stopParticles target => exact h.thin (List.filter_sublist.map _) continued
  | clear => exact h.thin (List.nil_sublist _) continued
  | step view scene => exact h.thin (numbers_stepAll view r.records scene) continued

theorem Ordered.performAll (h : r.Ordered) (calls : List Call) : (r.performAll calls).Ordered := by
  induction calls generalizing r with
  | nil => exact h
  | cons call rest ih => exact ih (h.perform call)

theorem ordered_history (calls : List Call) : (history calls).Ordered :=
  Ordered.performAll ⟨.nil, by simp [Bounded]⟩ calls

/-! ### Where a record comes from -/

/-- One of the calls has started the effect of the record, which is as it was then. -/
def Started (r : Registry) (calls : List Call) (record : EffectRecord) : Prop :=
  ∃ earlier target effect later, calls = earlier ++ .add target effect :: later ∧
    record = ⟨((r.performAll earlier).add target effect).1, target, 0, effect⟩

namespace Started

theorem append (h : r.Started first record) (second : List Call) :
    r.Started (first ++ second) record := by
  obtain ⟨earlier, target, effect, later, rfl, rfl⟩ := h
  exact ⟨earlier, target, effect, later ++ second, by simp, rfl⟩

theorem prepend (first : List Call) (h : (r.performAll first).Started second record) :
    r.Started (first ++ second) record := by
  obtain ⟨earlier, target, effect, later, rfl, rfl⟩ := h
  exact ⟨first ++ earlier, target, effect, later, by simp, by rw [performAll_append]⟩

theorem split (h : r.Started calls record) :
    ∃ before, before.nextId = record.id.number ∧ Continued r before ∧
      Continued ⟨before.records ++ [record], before.nextId + 1⟩ (r.performAll calls) := by
  obtain ⟨earlier, target, effect, later, rfl, rfl⟩ := h
  refine ⟨r.performAll earlier, rfl, continued_performAll r earlier, ?_⟩
  rw [performAll_append]
  exact continued_performAll _ later

theorem id_lt (h : r.Started calls record) : record.id.number < (r.performAll calls).nextId := by
  obtain ⟨before, number, -, on⟩ := h.split
  exact Nat.lt_of_lt_of_le (number ▸ Nat.lt_succ_self _) on.nextId_le

/-- Whatever lives under the number of a record is what has become of it. -/
theorem becomes (h : r.Started calls record) (bounded : r.Bounded) {live : EffectRecord}
    (there : live ∈ (r.performAll calls).records) (same : live.id = record.id) :
    record.Becomes live := by
  obtain ⟨before, number, on, rest⟩ := h.split
  rcases rest.origin live there with ⟨old, among, becomes⟩ | ⟨new, -⟩
  · rcases List.mem_append.1 among with among | among
    · have less := on.bounded bounded old among
      rw [number, ← becomes.id, same] at less
      exact absurd less (Nat.lt_irrefl _)
    · rwa [← List.mem_singleton.1 among]
  · rw [same, ← number] at new
    exact absurd new (Nat.not_succ_le_self _)

end Started

theorem ne_of_mem_history (before : earlier <+: calls)
    (there : record ∈ (history earlier).records) (target : ObjectId) (effect : Effect) :
    record.id ≠ ((history calls).add target effect).1 := by
  obtain ⟨later, rfl⟩ := before
  rintro same
  have used := (ordered_history earlier).bounded record there
  have grows := (continued_performAll (history earlier) later).nextId_le
  rw [same, history_append] at used
  exact absurd used (Nat.not_lt.2 grows)

theorem contains_history (started : Started {} earlier record)
    (gone : (history earlier).contains record.id = false) (later : List Call) :
    (history (earlier ++ later)).contains record.id = false := by
  rw [Bool.eq_false_iff] at gone ⊢
  rw [history_append]
  exact fun live => gone
    ((continued_performAll (history earlier) later).contains_of_contains started.id_lt live)

end Registry

theorem Task.asleep_iff {calls : List Registry.Call} {record : EffectRecord}
    (started : Registry.Started {} calls record) {t : Task} {w : World}
    (waits : t.wake = .effect record.id) (here : w.effects = .history calls) :
    (t.wakes w).1 = false ↔ ∃ live ∈ w.effects.records, record.Becomes live := by
  have asleep : (t.wakes w).1 = !w.effects.contains record.id := by
    simp only [wakes, waits]
  rw [asleep, Bool.not_eq_false', Registry.contains, List.any_eq_true]
  simp only [decide_eq_true_eq]
  constructor
  · rintro ⟨live, there, same⟩
    rw [here] at there
    exact ⟨live, here ▸ there, started.becomes (by simp [Registry.Bounded]) there same⟩
  · rintro ⟨live, there, becomes⟩
    exact ⟨live, there, becomes.id⟩

end BlockStage
