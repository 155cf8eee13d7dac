import BlockStage.Block.Basic
import Mathlib.Data.List.Forall2

/-! The number for the next block. It is one past the greatest of the numbers in use, which are the
same however the blocks lie. -/

namespace BlockStage

namespace Block

mutual

def instanceIds : Block → List UInt64
  | ⟨instanceId, _, _, children, elseChildren⟩ =>
    instanceId :: (instanceIdsIn children ++ instanceIdsIn elseChildren)

def instanceIdsIn : List Block → List UInt64
  | [] => []
  | b :: rest => instanceIds b ++ instanceIdsIn rest

end

theorem instanceIds_ne_nil (b : Block) : instanceIds b ≠ [] := by
  obtain ⟨instanceId, blockId, values, children, elseChildren⟩ := b
  exact List.cons_ne_nil _ _

theorem instanceIdsIn_append (blocks more : List Block) :
    instanceIdsIn (blocks ++ more) = instanceIdsIn blocks ++ instanceIdsIn more := by
  induction blocks with
  | nil => rfl
  | cons b rest ih => rw [List.cons_append, instanceIdsIn, instanceIdsIn, ih, List.append_assoc]

theorem instanceIdsIn_eq_nil_iff {blocks : List Block} :
    instanceIdsIn blocks = [] ↔ blocks = [] := by
  cases blocks with
  | nil => exact iff_of_true rfl rfl
  | cons b rest => simp [instanceIdsIn, instanceIds_ne_nil]

/-! ### The greatest number -/

/-- The greatest of the numbers; zero if there is none. -/
structure Greatest (id : UInt64) (ids : List UInt64) : Prop where
  le : ∀ other ∈ ids, other ≤ id
  mem : id ∈ ids ∨ ids = [] ∧ id = 0

theorem Greatest.append_of_le {id id' : UInt64} {ids ids' : List UInt64} (h : Greatest id ids)
    (h' : Greatest id' ids') (less : id ≤ id') : Greatest id' (ids ++ ids') where
  le other there := by
    rcases List.mem_append.1 there with first | second
    · exact UInt64.le_trans (h.le other first) less
    · exact h'.le other second
  mem := by
    rcases h'.mem with second | ⟨rfl, rfl⟩
    · exact .inl (List.mem_append_right _ second)
    · obtain rfl : id = 0 := UInt64.le_antisymm less UInt64.zero_le
      rw [List.append_nil]
      exact h.mem

theorem Greatest.perm {id : UInt64} {ids ids' : List UInt64} (h : Greatest id ids)
    (moved : ids.Perm ids') : Greatest id ids' where
  le other there := h.le other (moved.mem_iff.2 there)
  mem := h.mem.imp moved.mem_iff.1 fun none => ⟨(none.1 ▸ moved).nil_eq.symm, none.2⟩

theorem Greatest.append {id id' : UInt64} {ids ids' : List UInt64} (h : Greatest id ids)
    (h' : Greatest id' ids') : Greatest (max id id') (ids ++ ids') := by
  change Greatest (if id ≤ id' then id' else id) (ids ++ ids')
  split
  · rename_i less
    exact h.append_of_le h' less
  · rename_i more
    have less := (UInt64.le_total id id').resolve_left more
    exact (h'.append_of_le h less).perm List.perm_append_comm

mutual

theorem greatest_instanceIds (b : Block) : Greatest (greatestId b) (instanceIds b) := by
  obtain ⟨instanceId, blockId, values, children, elseChildren⟩ := b
  have own : Greatest instanceId [instanceId] :=
    ⟨fun _ there => UInt64.le_of_eq (List.mem_singleton.1 there), .inl List.mem_cons_self⟩
  rw [greatestId, instanceIds]
  exact own.append
    ((greatest_instanceIdsIn children).append (greatest_instanceIdsIn elseChildren))

theorem greatest_instanceIdsIn (blocks : List Block) :
    Greatest (greatestIdIn blocks) (instanceIdsIn blocks) := by
  cases blocks with
  | nil => exact ⟨nofun, .inr ⟨rfl, rfl⟩⟩
  | cons b rest =>
    rw [greatestIdIn, instanceIdsIn]
    exact (greatest_instanceIds b).append (greatest_instanceIdsIn rest)

end

/-! ### Other orders -/

/-- The same blocks in another order. Siblings may change places at any depth, and so may the two
branches of a block. -/
inductive Reordered : List Block → List Block → Prop
  | nil : Reordered [] []
  | cons {id : UInt64} {name : String} {values : Named Json.Value}
      {children children' elseChildren elseChildren' rest rest' : List Block} :
      Reordered children children' → Reordered elseChildren elseChildren' → Reordered rest rest' →
      Reordered (⟨id, name, values, children, elseChildren⟩ :: rest)
        (⟨id, name, values, children', elseChildren'⟩ :: rest')
  | branches {id : UInt64} {name : String} {values : Named Json.Value}
      {children elseChildren rest : List Block} :
      Reordered (⟨id, name, values, children, elseChildren⟩ :: rest)
        (⟨id, name, values, elseChildren, children⟩ :: rest)
  | siblings {b c : Block} {rest : List Block} : Reordered (b :: c :: rest) (c :: b :: rest)
  | trans {blocks blocks' blocks'' : List Block} :
      Reordered blocks blocks' → Reordered blocks' blocks'' → Reordered blocks blocks''

theorem Reordered.perm {blocks blocks' : List Block} (h : Reordered blocks blocks') :
    (instanceIdsIn blocks).Perm (instanceIdsIn blocks') := by
  induction h with
  | nil => exact .nil
  | cons _ _ _ children elseChildren rest =>
    simp only [instanceIdsIn, instanceIds]
    exact ((children.append elseChildren).cons _).append rest
  | branches =>
    simp only [instanceIdsIn, instanceIds]
    exact (List.perm_append_comm.cons _).append_right _
  | siblings =>
    simp only [instanceIdsIn, ← List.append_assoc]
    exact List.perm_append_comm.append_right _
  | trans _ _ first second => exact first.trans second

end Block

namespace Stack

def instanceIds (canvas : List Stack) : List UInt64 :=
  canvas.flatMap fun s => Block.instanceIdsIn s.blocks

/-- The same blocks in the same stacks. The stacks may change places, and so may the blocks of each
of them. -/
def Reordered (canvas canvas' : List Stack) : Prop :=
  ∃ moved, canvas.Perm moved ∧
    List.Forall₂ (fun s s' => Block.Reordered s.blocks s'.blocks) moved canvas'

variable {canvas canvas' : List Stack}

theorem instanceIds_eq (canvas : List Stack) :
    instanceIds canvas = Block.instanceIdsIn (canvas.flatMap (·.blocks)) := by
  induction canvas with
  | nil => rfl
  | cons s rest ih =>
    rw [List.flatMap_cons, Block.instanceIdsIn_append, ← ih, instanceIds, List.flatMap_cons]
    rfl

theorem instanceIds_eq_nil_iff : instanceIds canvas = [] ↔ ∀ s ∈ canvas, s.blocks = [] := by
  simp only [instanceIds, List.flatMap_eq_nil_iff, Block.instanceIdsIn_eq_nil_iff]

theorem instanceIds_pruneEmpty (canvas : List Stack) :
    instanceIds (pruneEmpty canvas) = instanceIds canvas := by
  induction canvas with
  | nil => rfl
  | cons s rest ih =>
    rw [instanceIds, instanceIds, pruneEmpty, List.filter_cons, List.flatMap_cons]
    by_cases empty : s.blocks = []
    · rw [empty]
      exact ih
    · have kept : (!s.blocks.isEmpty) = true := by simpa using empty
      rw [if_pos kept, List.flatMap_cons]
      exact congrArg (Block.instanceIdsIn s.blocks ++ ·) ih

theorem Reordered.perm (h : Reordered canvas canvas') :
    (instanceIds canvas).Perm (instanceIds canvas') := by
  obtain ⟨moved, places, blocks⟩ := h
  refine (places.flatMap_right _).trans ?_
  clear places
  induction blocks with
  | nil => exact .nil
  | cons first _ rest => exact first.perm.append rest

theorem nextInstanceId_cases (canvas : List Stack) :
    instanceIds canvas = [] ∧ nextInstanceId canvas = 1 ∨
      ∃ id ∈ instanceIds canvas,
        (∀ other ∈ instanceIds canvas, other ≤ id) ∧ nextInstanceId canvas = id.toNat + 1 := by
  have greatest := Block.greatest_instanceIdsIn (canvas.flatMap (·.blocks))
  rw [instanceIds_eq, nextInstanceId]
  cases blocks : canvas.flatMap (·.blocks) with
  | nil => exact .inl ⟨rfl, rfl⟩
  | cons b rest =>
    rw [blocks] at greatest
    rcases greatest.mem with there | ⟨none, -⟩
    · exact .inr ⟨_, there, greatest.le, rfl⟩
    · exact absurd (Block.instanceIdsIn_eq_nil_iff.1 none) (List.cons_ne_nil _ _)

theorem nextInstanceId_congr
    (same : ∀ id, id ∈ instanceIds canvas ↔ id ∈ instanceIds canvas') :
    nextInstanceId canvas = nextInstanceId canvas' := by
  rcases nextInstanceId_cases canvas with ⟨none, one⟩ | ⟨id, there, greatest, next⟩
  · rcases nextInstanceId_cases canvas' with ⟨-, one'⟩ | ⟨id', there', -⟩
    · rw [one, one']
    · rw [← same, none] at there'
      exact absurd there' List.not_mem_nil
  · rcases nextInstanceId_cases canvas' with ⟨none', -⟩ | ⟨id', there', greatest', next'⟩
    · rw [same, none'] at there
      exact absurd there List.not_mem_nil
    · have equal : id = id' :=
        UInt64.le_antisymm (greatest' id ((same id).1 there)) (greatest id' ((same id').2 there'))
      rw [next, next', equal]

/-- The next number is a word above every number in use: one if there is no block, and otherwise
exactly one past some number. Empty stacks make no difference to it, and neither does the order of
stacks, siblings or branches. -/
theorem nextInstanceId_fresh (canvas : List Stack)
    (below : ∀ id ∈ instanceIds canvas, id.toNat < UInt64.size - 1) :
    let next := nextInstanceId canvas
    next < UInt64.size ∧
    (∀ id ∈ instanceIds canvas, id.toNat < next) ∧
    (if ∀ s ∈ canvas, s.blocks = [] then next = 1
      else ∃ id ∈ instanceIds canvas, next = id.toNat + 1) ∧
    nextInstanceId (pruneEmpty canvas) = next ∧
    ∀ canvas', Reordered canvas canvas' → nextInstanceId canvas' = next := by
  intro next
  have pruned : nextInstanceId (pruneEmpty canvas) = next :=
    nextInstanceId_congr fun id => by rw [instanceIds_pruneEmpty]
  have reordered (canvas' : List Stack) (h : Reordered canvas canvas') :
      nextInstanceId canvas' = next :=
    nextInstanceId_congr fun id => h.perm.mem_iff.symm
  simp only [← instanceIds_eq_nil_iff]
  rcases nextInstanceId_cases canvas with ⟨none, one⟩ | ⟨id, there, greatest, past⟩
  · refine ⟨?_, fun id there => ?_, ?_, pruned, reordered⟩
    · rw [show next = 1 from one]
      decide
    · rw [none] at there
      exact absurd there List.not_mem_nil
    · rw [if_pos none]
      exact one
  · have room := below id there
    refine ⟨?_, fun other there' => ?_, ?_, pruned, reordered⟩
    · rw [show next = id.toNat + 1 from past]
      omega
    · rw [show next = id.toNat + 1 from past]
      exact Nat.lt_succ_of_le (UInt64.le_iff_toNat_le.1 (greatest other there'))
    · rw [if_neg (List.ne_nil_of_mem there)]
      exact ⟨id, there, past⟩

section Example

def branching : List Stack :=
  [⟨1, 0, 0, []⟩,
    ⟨2, 0, 0, [⟨4, "onStart", [], [], []⟩,
      ⟨2, "ifElse", [], [⟨3, "show", [], [], []⟩],
        [⟨5, "repeat", [], [], [⟨9, "hide", [], [], []⟩]⟩]⟩]⟩]

def branchingReordered : List Stack :=
  [⟨2, 0, 0, [⟨2, "ifElse", [], [⟨5, "repeat", [], [], [⟨9, "hide", [], [], []⟩]⟩],
      [⟨3, "show", [], [], []⟩]⟩, ⟨4, "onStart", [], [], []⟩]⟩,
    ⟨1, 0, 0, []⟩]

theorem reordered_branching : Reordered branching branchingReordered :=
  ⟨_, .swap .., .cons (.trans .siblings .branches) (.cons .nil .nil)⟩

theorem branching_next_fresh :
    (∀ id ∈ instanceIds branching, id.toNat < UInt64.size - 1) ∧
      nextInstanceId branching = 10 ∧ nextInstanceId branchingReordered = 10 := by
  have ids : instanceIds branching = [4, 2, 3, 5, 9] := rfl
  have below : ∀ id ∈ instanceIds branching, id.toNat < UInt64.size - 1 := by
    rw [ids]
    simp
  have next : nextInstanceId branching = 10 := by decide
  obtain ⟨-, -, -, -, reordered⟩ := nextInstanceId_fresh branching below
  exact ⟨below, next, (reordered _ reordered_branching).trans next⟩

end Example

end Stack
end BlockStage
