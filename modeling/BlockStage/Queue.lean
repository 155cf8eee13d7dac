/-!
First in, first out, by two lists: the front in order, the back reversed. What a queue holds is
`toList`; every operation is an equation about it.
-/

namespace BlockStage

structure Queue (α : Type) where
  front : List α := []
  back : List α := []

namespace Queue

variable {α : Type}

def empty : Queue α := {}

def toList (q : Queue α) : List α := q.front ++ q.back.reverse

def ofList (items : List α) : Queue α := { front := items }

def push (q : Queue α) (a : α) : Queue α := { q with back := a :: q.back }

def isEmpty (q : Queue α) : Bool := q.front.isEmpty && q.back.isEmpty

def size (q : Queue α) : Nat := q.front.length + q.back.length

/-- The item that was put in first, and the queue without it. -/
def pop? (q : Queue α) : Option (α × Queue α) :=
  match q.front with
  | a :: front => some (a, { q with front })
  | [] =>
    match q.back.reverse with
    | [] => none
    | a :: front => some (a, { front })

@[simp] theorem toList_empty : (empty : Queue α).toList = [] := rfl

@[simp] theorem toList_ofList (items : List α) : (ofList items).toList = items := by
  simp [ofList, toList]

@[simp] theorem toList_push (q : Queue α) (a : α) : (q.push a).toList = q.toList ++ [a] := by
  simp [push, toList]

@[simp] theorem isEmpty_iff (q : Queue α) : q.isEmpty = true ↔ q.toList = [] := by
  simp [isEmpty, toList]

@[simp] theorem size_eq (q : Queue α) : q.size = q.toList.length := by
  simp [size, toList]

theorem pop?_eq_none {q : Queue α} (h : q.pop? = none) : q.toList = [] := by
  unfold pop? at h
  split at h
  · contradiction
  · rename_i hf
    split at h
    · rename_i hb
      simp [toList, hf, hb]
    · contradiction

theorem toList_of_pop? {q rest : Queue α} {a : α} (h : q.pop? = some (a, rest)) :
    q.toList = a :: rest.toList := by
  unfold pop? at h
  split at h
  · rename_i hf
    obtain ⟨rfl, rfl⟩ := Prod.mk.inj (Option.some.inj h)
    simp [toList, hf]
  · rename_i hf
    split at h
    · contradiction
    · rename_i hb
      obtain ⟨rfl, rfl⟩ := Prod.mk.inj (Option.some.inj h)
      simp [toList, hf, hb]

end Queue
end BlockStage
