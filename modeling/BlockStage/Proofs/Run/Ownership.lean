import BlockStage.Proofs.Run.Effects
import BlockStage.Proofs.Scene.Distinct

/-! An instruction changes no object but its owner, and no effect on another object. What it does to
the list of all objects is told by its command. -/

namespace BlockStage

/-- What a command of an owner makes of the objects of a scene. -/
def Command.Rearranges (owner : ObjectId) (s s' : Scene) : Command → Prop
  | .spawnObject shape position =>
    ∃ o : SceneObject, o.id = ⟨s.nextId⟩ ∧ o.shape = shape ∧ o.position = position ∧
      s'.objects = s.objects ++ [o]
  | .duplicate =>
    match s.find? owner with
    | none => s'.objects = s.objects
    | some o => s'.objects = s.objects ++ [{ o with id := ⟨s.nextId⟩ }]
  | .destroy => s'.objects = s.objects.filter (·.id ≠ owner)
  | _ => ∃ f : SceneObject → SceneObject, (∀ o, (f o).id = o.id) ∧
      s'.objects = s.objects.map fun o => if o.id = owner then f o else o

namespace Command.Rearranges

variable {owner : ObjectId} {s s' : Scene} {command : Command}

theorem of_map (h : (∀ shape position, command ≠ .spawnObject shape position) ∧
      command ≠ .duplicate ∧ command ≠ .destroy)
    {f : SceneObject → SceneObject} (ids : ∀ o, (f o).id = o.id)
    (objects : s'.objects = s.objects.map fun o => if o.id = owner then f o else o) :
    command.Rearranges owner s s' := by
  cases command with
  | spawnObject shape position => exact absurd rfl (h.1 shape position)
  | duplicate => exact absurd rfl h.2.1
  | destroy => exact absurd rfl h.2.2
  | _ => exact ⟨f, ids, objects⟩

theorem objects_cases (h : command.Rearranges owner s s') :
    (∃ f : SceneObject → SceneObject, (∀ o, (f o).id = o.id) ∧
        s'.objects = s.objects.map fun o => if o.id = owner then f o else o) ∨
      (∃ o : SceneObject, o.id = ⟨s.nextId⟩ ∧ s'.objects = s.objects ++ [o]) ∨
      s'.objects = s.objects.filter (·.id ≠ owner) := by
  cases command with
  | spawnObject =>
    obtain ⟨o, next, -, -, objects⟩ := h
    exact .inr (.inl ⟨o, next, objects⟩)
  | duplicate =>
    dsimp only [Rearranges] at h
    split at h
    · exact .inl ⟨id, fun _ => rfl, by simp [h]⟩
    · exact .inr (.inl ⟨_, rfl, h⟩)
  | destroy => exact .inr (.inr h)
  | _ => exact .inl h

theorem others (h : command.Rearranges owner s s') :
    s.objects.filter (·.id ≠ owner) <+: s'.objects.filter (·.id ≠ owner) := by
  obtain ⟨f, ids, objects⟩ | ⟨o, -, objects⟩ | objects := h.objects_cases
  · have same : ((fun o : SceneObject => decide (o.id ≠ owner)) ∘
        fun o => if o.id = owner then f o else o) = fun o => decide (o.id ≠ owner) := by
      funext o
      by_cases own : o.id = owner <;> simp [own, ids]
    have other : ∀ o ∈ s.objects.filter (·.id ≠ owner), o.id ≠ owner := fun o there => by
      simpa using (List.mem_filter.1 there).2
    exact ⟨[], by rw [List.append_nil, objects, List.filter_map, same, Scene.map_of_ne other]⟩
  · rw [objects, List.filter_append]
    exact List.prefix_append _ _
  · exact ⟨[], by simp only [List.append_nil, objects, List.filter_filter, Bool.and_self]⟩

theorem nodup (h : command.Rearranges owner s s') (distinct : s.ids.Nodup)
    (unused : ⟨s.nextId⟩ ∉ s.ids) : s'.ids.Nodup := by
  obtain ⟨f, ids, objects⟩ | ⟨o, next, objects⟩ | objects := h.objects_cases
  · have same : s'.ids = s.ids := by
      rw [Scene.ids, objects, List.map_map]
      refine List.map_congr_left fun o _ => ?_
      by_cases own : o.id = owner <;> simp [own, ids]
    rwa [same]
  · have more : s'.ids = s.ids ++ [o.id] := by rw [Scene.ids, objects, List.map_append]; rfl
    rw [more, next]
    exact List.nodup_append.2 ⟨distinct, by simp, fun id there _ new same =>
      unused (List.mem_singleton.1 new ▸ same ▸ there)⟩
  · rw [Scene.ids, objects]
    exact distinct.sublist (List.filter_sublist.map _)

end Command.Rearranges

namespace Instruction

variable (i : Instruction) (owner : ObjectId) (program : Program) (w : World)

section Example

end Example

end Instruction
end BlockStage
