import BlockStage.Proofs.Json.Values
import Mathlib.Data.List.Induction
import Mathlib.Data.List.Nodup

/-! What is found under a name is what was put there last. -/

namespace BlockStage.Named

variable {α : Type} {name : String} {value : α}

theorem get?_cons (other : String) (old : α) (rest : Named α) (name : String) :
    get? ((other, old) :: rest) name = if name = other then some old else rest.get? name := by
  rw [get?, List.lookup_cons]
  by_cases same : name = other
  · simp [same]
  · simp [same, get?, beq_false_of_ne same]

theorem get?_insert (entries : Named α) (name : String) (value : α) (other : String) :
    (insert name value entries).get? other =
      if other = name then some value else entries.get? other := by
  induction entries with
  | nil => exact get?_cons name value [] other
  | cons entry rest ih =>
    obtain ⟨key, old⟩ := entry
    rw [insert]
    split
    · exact get?_cons ..
    · split
      · rename_i same
        rw [get?_cons, get?_cons, same]
        split <;> rfl
      · rename_i apart
        rw [get?_cons, get?_cons, ih]
        grind

theorem get?_eq_some_of_mem {entries : Named α} (distinct : (entries.map (·.1)).Nodup)
    (h : (name, value) ∈ entries) : entries.get? name = some value := by
  induction entries with
  | nil => contradiction
  | cons entry rest ih =>
    obtain ⟨first, later⟩ := List.nodup_cons.1 distinct
    rw [get?_cons]
    rcases List.mem_cons.1 h with rfl | h
    · exact if_pos rfl
    · have apart : name ≠ entry.1 := by
        rintro rfl
        exact first (List.mem_map.2 ⟨_, h, rfl⟩)
      rw [if_neg apart, ih later h]

theorem Sorted.nodup {entries : Named α} (h : Sorted entries) : (entries.map (·.1)).Nodup :=
  List.pairwise_map.2 (h.imp fun before => String.ne_of_lt before)

theorem get?_map {β : Type} (f : α → β) (entries : Named α) (name : String) :
    get? (entries.map fun p => (p.1, f p.2)) name = (entries.get? name).map f := by
  induction entries with
  | nil => rfl
  | cons entry rest ih =>
    rw [List.map_cons, get?_cons, get?_cons, ih]
    split <;> rfl

theorem get?_ofList (entries : List (String × α)) (name : String) :
    (ofList entries).get? name = get? entries.reverse name := by
  induction entries using List.reverseRecOn with
  | nil => rfl
  | append_singleton rest entry ih =>
    rw [List.reverse_concat, get?_cons, ← ih, ofList, List.foldl_append]
    exact get?_insert ..

theorem get?_ofList_of_mem {entries : List (String × α)} (distinct : (entries.map (·.1)).Nodup)
    (h : (name, value) ∈ entries) : (ofList entries).get? name = some value := by
  rw [get?_ofList]
  refine get?_eq_some_of_mem ?_ (List.mem_reverse.2 h)
  rw [List.map_reverse]
  exact List.nodup_reverse.2 distinct

theorem mem_names_insert (entries : Named α) (name : String) (value : α) (other : String) :
    other ∈ (insert name value entries).map (·.1) ↔ other = name ∨ other ∈ entries.map (·.1) := by
  induction entries with
  | nil => simp [insert]
  | cons entry rest ih =>
    obtain ⟨key, old⟩ := entry
    rw [insert]
    split
    · simp
    · split
      · rename_i same
        simp [same]
      · simp only [List.map_cons, List.mem_cons, ih, or_left_comm]

theorem mem_names_ofList (entries : List (String × α)) (name : String) :
    name ∈ (ofList entries).map (·.1) ↔ name ∈ entries.map (·.1) := by
  induction entries using List.reverseRecOn with
  | nil => rfl
  | append_singleton rest entry ih =>
    rw [ofList, List.foldl_append, List.foldl_cons, List.foldl_nil, mem_names_insert, ← ofList, ih]
    simp [or_comm]

end BlockStage.Named
