import BlockStage.Proofs.Scene.Ids

/-! Numbers of objects. They are handed out one after the other, and behind the greatest word the
count begins again: numbers are new as long as the words last. -/

namespace BlockStage

namespace ObjectId

def limit : Nat := 4294967296

theorem number_lt (id : ObjectId) : id.number < limit := id.word.isLt

def successive (first : BitVec 32) (count : Nat) : List ObjectId :=
  (List.range count).map fun i => ⟨first + .ofNat 32 i⟩

variable (first : BitVec 32)

@[simp] theorem length_successive (count : Nat) : (successive first count).length = count := by
  simp [successive]

@[simp] theorem successive_one : successive first 1 = [⟨first⟩] := by simp [successive]

theorem successive_append (m n : Nat) :
    successive first m ++ successive (first + .ofNat 32 m) n = successive first (m + n) := by
  simp only [successive, List.range_add, List.map_append, List.map_map, List.append_cancel_left_eq]
  refine List.map_congr_left fun i _ => ?_
  simp only [Function.comp_apply, BitVec.ofNat_add, BitVec.add_assoc]

variable {first} {count : Nat}

theorem toNat_add (room : first.toNat + count < limit) :
    (first + .ofNat 32 count).toNat = first.toNat + count := by
  have room : first.toNat + count < 4294967296 := room
  simp only [BitVec.toNat_add, BitVec.toNat_ofNat]
  omega

theorem toNat_succ (room : first.toNat + 1 < limit) : (first + 1).toNat = first.toNat + 1 :=
  toNat_add room

theorem nodup_successive (first : BitVec 32) (few : count ≤ limit) :
    (successive first count).Nodup := by
  have few : count ≤ 4294967296 := few
  refine List.pairwise_map.2 (List.nodup_range.imp_of_mem fun {i j} hi hj ne same => ne ?_)
  have words := congrArg BitVec.toNat ((BitVec.add_right_inj _).1 (ObjectId.mk.inj same))
  rw [List.mem_range] at hi hj
  simp only [BitVec.toNat_ofNat] at words
  omega

theorem mem_successive (room : first.toNat + count ≤ limit) {id : ObjectId} :
    id ∈ successive first count ↔ first.toNat ≤ id.number ∧ id.number < first.toNat + count := by
  simp only [successive, List.mem_map, List.mem_range]
  constructor
  · rintro ⟨i, hi, rfl⟩
    rw [number, toNat_add (Nat.lt_of_lt_of_le (Nat.add_lt_add_left hi _) room)]
    omega
  · rintro ⟨low, high⟩
    refine ⟨id.number - first.toNat, by omega, ?_⟩
    have below := id.number_lt
    have word : (first + .ofNat 32 (id.number - first.toNat)).toNat = id.word.toNat := by
      rw [toNat_add (by omega)]
      change _ = id.number
      omega
    exact congrArg ObjectId.mk (BitVec.eq_of_toNat_eq word)

end ObjectId

namespace Scene

/-- Objects that come later get numbers above those of the objects that are there. -/
def Numbered (s : Scene) : Prop := ∀ id ∈ s.ids, id.number < s.nextId.toNat

/-- The next so many numbers differ, and none of them is in use. -/
def Spares (s : Scene) (count : Nat) : Prop :=
  count ≤ ObjectId.limit ∧ ∀ id ∈ ObjectId.successive s.nextId count, id ∉ s.ids

variable {s : Scene}

theorem Numbered.spares (h : s.Numbered) {count : Nat}
    (room : s.nextId.toNat + count ≤ ObjectId.limit) : s.Spares count :=
  ⟨Nat.le_trans (Nat.le_add_left _ _) room, fun id next there =>
    Nat.not_lt.2 ((ObjectId.mem_successive room).1 next).1 (h id there)⟩

theorem nextId_spawn_of_below {o : SceneObject} (handed : o.id.number < s.nextId.toNat) :
    (s.spawn o).nextId = s.nextId := by
  have last := s.nextId.isLt
  have behind : (o.id.word + 1).toNat ≤ s.nextId.toNat := by
    rw [BitVec.toNat_add]
    exact Nat.le_trans (Nat.mod_le _ _) handed
  exact if_neg (Nat.not_lt.2 behind)

theorem Numbered.unused (h : s.Numbered) : ⟨s.nextId⟩ ∉ s.ids := by
  have spare : s.Spares 1 := h.spares s.nextId.isLt
  exact spare.2 _ (by simp)

/-- Every number names at most one object, and later objects get other numbers. -/
structure Sound (s : Scene) : Prop where
  nodup : s.ids.Nodup
  below : s.Numbered

theorem Sound.add {s' : Scene} {id : ObjectId} (h : s.Sound) (unused : id ∉ s.ids)
    (ids : s'.ids = s.ids ++ [id]) (nextId_le : s.nextId.toNat ≤ s'.nextId.toNat)
    (below : id.number < s'.nextId.toNat) : s'.Sound where
  nodup := by
    rw [ids, List.nodup_append]
    refine ⟨h.nodup, by simp, fun other there _ new same => unused ?_⟩
    rwa [← List.mem_singleton.1 new, ← same]
  below other there := by
    rw [ids, List.mem_append, List.mem_singleton] at there
    rcases there with old | rfl
    · exact Nat.lt_of_lt_of_le (h.below other old) nextId_le
    · exact below

end Scene
end BlockStage
