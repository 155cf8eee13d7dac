import BlockStage.Proofs.Scalar.Sums

/-! Counting quarters with doubles. Up to `2 ^ 51` no quarter that is added or taken away gets
lost. -/

namespace BlockStage.Scalar

open Float.Model (Format UnpackedFloat)
open Float.Model.UnpackedFloat
open Magnitude

def quarter : Magnitude := powerOfTwo 1020

theorem measures_quarter : Measures (Float.toModel 0.25).unpack quarter :=
  .finite (a := quarter) (by decide) (by decide)

theorem exists_multiple {q : Magnitude} (power : q.digits = 2 ^ 52) (small : q.places + 53 ≤ 2046)
    {n : Nat} (few : n < 2 ^ 53) : ∃ a : Magnitude, a.units = n * q.units ∧ a.rank < top.rank := by
  have split : n * q.units = n * 2 ^ (52 + q.places) := by rw [units, power, ← Nat.pow_add]
  have exact : (ofUnits (n * 2 ^ (52 + q.places))).units = n * q.units := by
    rw [units_ofUnits few, split]
  refine ⟨_, exact, Nat.not_le.1 (mt units_le_iff.2 (Nat.not_le.2 ?_))⟩
  rw [exact, split]
  calc n * 2 ^ (52 + q.places) < 2 ^ 53 * 2 ^ (52 + q.places) :=
        Nat.mul_lt_mul_of_pos_right few (Nat.two_pow_pos _)
    _ = top.digits * 2 ^ (53 + q.places) := by
      rw [Nat.pow_add, ← Nat.mul_assoc, Nat.mul_comm (2 ^ 53), Nat.mul_assoc, ← Nat.pow_add]
      rfl
    _ ≤ top.digits * 2 ^ top.places :=
      Nat.mul_le_mul_left _ (Nat.pow_le_pow_right Nat.two_pos (show 53 + q.places ≤ 2046 by omega))

def AtLeast (x : Float) (quarters : Nat) : Prop :=
  ∃ a, Measures x.toModel.unpack a ∧ quarters * quarter.units ≤ a.units

def AtMost (x : Float) (quarters : Nat) : Prop :=
  x ≤ 0 ∨ ∃ a, Measures x.toModel.unpack a ∧ a.units ≤ quarters * quarter.units

variable {x y : Float} {n : Nat}

theorem atLeast_zero (h : 0 ≤ x) : AtLeast x 0 := by
  obtain ⟨a, measures⟩ := exists_measures h
  exact ⟨a, measures, by rw [Nat.zero_mul]; exact Nat.zero_le _⟩

theorem AtLeast.nonneg (h : AtLeast x n) : 0 ≤ x := by
  obtain ⟨a, measures, -⟩ := h
  exact measures.nonneg

theorem AtLeast.mono (h : AtLeast x n) (le : x ≤ y) (hy : 0 ≤ y) : AtLeast y n := by
  obtain ⟨a, ha, more⟩ := h
  obtain ⟨b, hb⟩ := exists_measures hy
  exact ⟨b, hb, more.trans (units_le_iff.2 ((le_iff_rank_le ha hb).1 le))⟩

theorem AtLeast.add_quarter (h : AtLeast x n) (few : n + 1 < 2 ^ 53) :
    AtLeast (x + 0.25) (n + 1) := by
  obtain ⟨a, ha, more⟩ := h
  obtain ⟨c, hc, rank⟩ := measures_add ha measures_quarter
  obtain ⟨g, units, below⟩ := exists_multiple (q := quarter) rfl (by decide) few
  have sum : g.rank ≤ (a.add quarter).rank := by
    rw [← ofUnits_units g]
    refine rank_ofUnits_mono ?_
    rw [units, Nat.add_mul, Nat.one_mul]
    exact Nat.add_le_add_right more _
  refine ⟨c, hc, units ▸ units_le_iff.2 ?_⟩
  rw [rank]
  exact Nat.le_min.2 ⟨sum, below.le⟩

theorem finite_of_units_le {a : Magnitude} (less : a.units ≤ n * quarter.units)
    (few : n < 2 ^ 53) : a.places < 2046 := by
  obtain ⟨g, units, below⟩ := exists_multiple (q := quarter) rfl (by decide) few
  have lt : a.rank < top.rank := Nat.lt_of_le_of_lt (units_le_iff.1 (less.trans units.ge)) below
  have full := a.full
  simp only [rank, top, powerOfTwo] at lt
  omega

theorem AtMost.sub (h : AtMost x n) (few : n < 2 ^ 53) (hy : 0 ≤ y) (small : y ≤ 0.25) :
    AtMost (x - y) n := by
  obtain ⟨b, hb⟩ := exists_measures hy
  have finite : b.places < 2046 := by
    have le : b.rank ≤ quarter.rank := (le_iff_rank_le hb measures_quarter).1 small
    simp only [rank, quarter, powerOfTwo] at le
    omega
  rcases h with nothing | ⟨a, ha, less⟩
  · exact .inl (sub_le_zero nothing hb finite)
  · rcases ha.sub (finite_of_units_le less few) hb finite with nothing | ⟨c, hc, rank⟩
    · exact .inl (decide_eq_true nothing)
    · refine .inr ⟨c, hc, (units_le_iff.2 ?_).trans less⟩
      rw [rank]
      calc min (ofUnits (a.units - b.units)).rank top.rank
          ≤ (ofUnits (a.units - b.units)).rank := Nat.min_le_left _ _
        _ ≤ (ofUnits a.units).rank := rank_ofUnits_mono (Nat.sub_le _ _)
        _ = a.rank := by rw [ofUnits_units]

theorem AtMost.sub_quarter (h : AtMost x (n + 1)) (few : n + 1 < 2 ^ 53) :
    AtMost (x - 0.25) n := by
  rcases h with nothing | ⟨a, ha, less⟩
  · exact .inl (sub_le_zero nothing measures_quarter (by decide))
  · rcases ha.sub (finite_of_units_le less few) measures_quarter (by decide) with
      nothing | ⟨c, hc, rank⟩
    · exact .inl (decide_eq_true nothing)
    · obtain ⟨g, units, -⟩ :=
        exists_multiple (q := quarter) rfl (by decide) (Nat.lt_of_succ_lt few)
      refine .inr ⟨c, hc, units ▸ units_le_iff.2 ?_⟩
      rw [rank, ← ofUnits_units g, units]
      refine (Nat.min_le_left _ _).trans (rank_ofUnits_mono ?_)
      rw [Nat.add_mul, Nat.one_mul] at less
      omega

theorem AtMost.le_zero (h : AtMost x 0) : x ≤ 0 := by
  rcases h with nothing | ⟨a, ha, less⟩
  · exact nothing
  · have zero : Measures (Float.toModel 0).unpack bottom := .zero .positive
    rw [le_iff_rank_le ha zero]
    exact units_le_iff.1 (less.trans (Nat.zero_mul _).le)

theorem AtMost.le (h : AtMost x n) (h' : AtLeast y n) : x ≤ y := by
  rcases h with nothing | ⟨a, ha, less⟩
  · exact le_of_nonpos nothing h'.nonneg
  · obtain ⟨b, hb, more⟩ := h'
    rw [le_iff_rank_le ha hb]
    exact units_le_iff.1 (less.trans more)

def limit : Magnitude := powerOfTwo 1073

theorem measures_limit : Measures (Float.toModel 2251799813685248).unpack limit := by
  have bits : (2251799813685248 : Float) = .ofBits 0x4320000000000000 := by decide
  rw [bits]
  exact .finite (a := limit) (by decide) (by decide)

/-- So many quarters are less than `2 ^ 51`, and one more are not. -/
def mostQuarters : Nat := 2 ^ 53 - 1

theorem exists_mostQuarters {q : Magnitude} (power : q.digits = 2 ^ 52) :
    ∃ a : Magnitude, a.units = mostQuarters * q.units ∧ a.rank + 1 = (q.places + 54) * 2 ^ 52 := by
  refine ⟨⟨mostQuarters, q.places + 52, by decide, .inr (by decide)⟩, ?_, ?_⟩
  · rw [units, units, power, Nat.add_comm, Nat.pow_add]
  · simp only [rank, mostQuarters]
    omega

theorem atMost_of_lt (h : x < 2251799813685248) : AtMost x mostQuarters := by
  by_cases nothing : x ≤ 0
  · exact .inl nothing
  · have positive : 0 ≤ x :=
      le_of_not_lt rfl (isNaN_of_lt h).1 fun less => nothing (le_of_lt less)
    obtain ⟨a, ha⟩ := exists_measures positive
    obtain ⟨g, units, rank⟩ := exists_mostQuarters (q := quarter) rfl
    have below : a.rank < limit.rank :=
      Nat.not_le.1 (mt (le_iff_rank_le measures_limit ha).2 (not_le_of_lt h))
    refine .inr ⟨a, ha, units ▸ units_le_iff.2 ?_⟩
    simp only [Magnitude.rank, limit, quarter, powerOfTwo] at below rank ⊢
    omega

end BlockStage.Scalar
