import BlockStage.Scalar.Exact
import Mathlib.Tactic.Ring

/-! Rounding of doubles that are not negative. A double is told by its digits and by the number of
places that these are shifted up from the least unit, which is `2 ^ -1074`. More units never round
to less, and as many units as a double has round to that double. -/

namespace BlockStage.Scalar

open Float.Model (Format totalExponent UnpackedFloat)
open Float.Model.UnpackedFloat

/-! ### Dropping places -/

/-- The digits with the round bit and the sticky bit behind them. -/
def grade (m : ExtendedMantissa) : Nat := 4 * m.mantissa + 2 * m.roundBit.toNat + m.stickyBit.toNat

theorem grade_shiftRightOne_mono {m m' : ExtendedMantissa} (le : grade m ≤ grade m') :
    grade m.shiftRightOne ≤ grade m'.shiftRightOne := by
  obtain ⟨a, r, s⟩ := m
  obtain ⟨a', r', s'⟩ := m'
  simp only [grade, ExtendedMantissa.shiftRightOne] at le ⊢
  have odd (b : Nat) : (b % 2 != 0).toNat = b % 2 := by
    rcases Nat.mod_two_eq_zero_or_one b with h | h <;> rw [h] <;> rfl
  rw [odd, odd]
  cases r <;> cases s <;> cases r' <;> cases s' <;> simp at le ⊢ <;> omega

theorem roundedMantissa_mono {m m' : ExtendedMantissa} (le : grade m ≤ grade m') :
    m.roundedMantissa ≤ m'.roundedMantissa := by
  obtain ⟨a, r, s⟩ := m
  obtain ⟨a', r', s'⟩ := m'
  cases r <;> cases s <;> cases r' <;> cases s' <;>
    simp only [grade, Bool.toNat_true, Bool.toNat_false, ExtendedMantissa.roundedMantissa,
      ExtendedMantissa.accuracy, Accuracy.roundToNearestEven] at le ⊢ <;> omega

/-- `n` without its last `places`, rounded to nearest and a half to the even neighbour. -/
def dropPlaces (n places : Nat) : Nat :=
  (ExtendedMantissa.ofMantissaAndAccuracy n .exact >>> places).roundedMantissa

theorem dropPlaces_mono {n n' : Nat} (le : n ≤ n') (places : Nat) :
    dropPlaces n places ≤ dropPlaces n' places := by
  have shifted (k : Nat) :
      grade (ExtendedMantissa.ofMantissaAndAccuracy n .exact >>> k) ≤
        grade (ExtendedMantissa.ofMantissaAndAccuracy n' .exact >>> k) := by
    induction k with
    | zero =>
      change 4 * n + 0 + 0 ≤ 4 * n' + 0 + 0
      omega
    | succ k ih => exact grade_shiftRightOne_mono ih
  exact roundedMantissa_mono (shifted places)

theorem dropPlaces_mul (n more places : Nat) :
    dropPlaces (n * 2 ^ more) (more + places) = dropPlaces n places := by
  have zeros : ExtendedMantissa.ofMantissaAndAccuracy (n * 2 ^ more) .exact >>> more =
      ExtendedMantissa.ofMantissaAndAccuracy n .exact := by
    induction more generalizing n with
    | zero =>
      rw [Nat.pow_zero, Nat.mul_one]
      rfl
    | succ more ih =>
      change ((ExtendedMantissa.ofMantissaAndAccuracy (n * 2 ^ (more + 1)) .exact >>> more)
        |>.shiftRightOne) = _
      rw [Nat.pow_succ, Nat.mul_comm (2 ^ more), ← Nat.mul_assoc, ih]
      simp [ExtendedMantissa.shiftRightOne, ExtendedMantissa.ofMantissaAndAccuracy]
  have shifted : ExtendedMantissa.ofMantissaAndAccuracy (n * 2 ^ more) .exact >>> (more + places) =
      ExtendedMantissa.ofMantissaAndAccuracy n .exact >>> places := by
    induction places with
    | zero => exact zeros
    | succ places ih => exact congrArg ExtendedMantissa.shiftRightOne ih
  exact congrArg ExtendedMantissa.roundedMantissa shifted

theorem dropPlaces_exact (n places : Nat) : dropPlaces (n * 2 ^ places) places = n :=
  dropPlaces_mul n places 0

/-! ### Magnitudes -/

/-- The digits of a double, as many of them as there can be, and how far they are shifted up. -/
structure Magnitude where
  digits : Nat
  places : Nat
  digits_lt : digits < 2 ^ 53
  full : places = 0 ∨ 2 ^ 52 ≤ digits

namespace Magnitude

def units (a : Magnitude) : Nat := a.digits * 2 ^ a.places

/-- The number of magnitudes below. -/
def rank (a : Magnitude) : Nat := a.places * 2 ^ 52 + a.digits

theorem units_lt_of_rank_lt {a b : Magnitude} (less : a.rank < b.rank) : a.units < b.units := by
  have places_le : a.places ≤ b.places := by
    have := a.digits_lt
    have := b.digits_lt
    have := a.full
    unfold rank at less
    omega
  rcases Nat.eq_or_lt_of_le places_le with same | fewer
  · have digits : a.digits < b.digits := by
      unfold rank at less
      omega
    rw [units, units, same]
    exact Nat.mul_lt_mul_of_pos_right digits (Nat.two_pow_pos _)
  · calc a.units < 2 ^ 53 * 2 ^ a.places :=
          Nat.mul_lt_mul_of_pos_right a.digits_lt (Nat.two_pow_pos _)
      _ = 2 ^ 52 * 2 ^ (a.places + 1) := by ring
      _ ≤ b.digits * 2 ^ b.places :=
          Nat.mul_le_mul (b.full.resolve_left (Nat.ne_of_gt (Nat.zero_lt_of_lt fewer)))
            (Nat.pow_le_pow_right Nat.two_pos fewer)

theorem eq_of_rank_eq {a b : Magnitude} (same : a.rank = b.rank) : a = b := by
  obtain ⟨d, p, lt, full⟩ := a
  obtain ⟨d', p', lt', full'⟩ := b
  simp only [rank] at same
  have places : p = p' := by omega
  subst places
  have digits : d = d' := by omega
  subst digits
  rfl

theorem units_le_iff {a b : Magnitude} : a.units ≤ b.units ↔ a.rank ≤ b.rank := by
  constructor
  · intro le
    by_contra above
    exact Nat.not_lt.2 le (units_lt_of_rank_lt (Nat.not_le.1 above))
  · intro le
    rcases Nat.eq_or_lt_of_le le with same | less
    · rw [eq_of_rank_eq same]
    · exact (units_lt_of_rank_lt less).le

theorem log2_mul_two_pow {n : Nat} (pos : 0 < n) (places : Nat) :
    (n * 2 ^ places).log2 = n.log2 + places := by
  have at_least := Nat.log2_self_le (Nat.ne_of_gt pos)
  have below : n < 2 ^ (n.log2 + 1) := Nat.lt_log2_self
  refine (Nat.log2_eq_iff (Nat.mul_pos pos (Nat.two_pow_pos _)).ne').2 ⟨?_, ?_⟩
  · rw [Nat.pow_add]
    exact Nat.mul_le_mul_right _ at_least
  · rw [Nat.add_right_comm, Nat.pow_add]
    exact Nat.mul_lt_mul_of_pos_right below (Nat.two_pow_pos _)

def spare (n : Nat) : Nat := n.log2 - 52

theorem spare_mono {n n' : Nat} (le : n ≤ n') : spare n ≤ spare n' := by
  rcases Nat.eq_zero_or_pos n with rfl | pos
  · exact Nat.zero_le _
  · have log2_le : n.log2 ≤ n'.log2 :=
      (Nat.le_log2 (by omega)).2 ((Nat.log2_self_le (by omega)).trans le)
    exact Nat.sub_le_sub_right log2_le 52

theorem lt_two_pow_spare (n : Nat) : n < 2 ^ 53 * 2 ^ spare n := by
  have below : n < 2 ^ (n.log2 + 1) := Nat.lt_log2_self
  calc n < 2 ^ (n.log2 + 1) := below
    _ ≤ 2 ^ (53 + spare n) := Nat.pow_le_pow_right Nat.two_pos (by unfold spare; omega)
    _ = 2 ^ 53 * 2 ^ spare n := Nat.pow_add ..

theorem two_pow_spare_le {n : Nat} (some : spare n ≠ 0) : 2 ^ 52 * 2 ^ spare n ≤ n := by
  have pos : n ≠ 0 := by
    rintro rfl
    exact some rfl
  calc 2 ^ 52 * 2 ^ spare n = 2 ^ n.log2 := by
        rw [← Nat.pow_add]
        congr 1
        unfold spare at *
        omega
    _ ≤ n := Nat.log2_self_le pos

theorem dropPlaces_spare_le (n : Nat) : dropPlaces n (spare n) ≤ 2 ^ 53 :=
  (dropPlaces_mono (lt_two_pow_spare n).le _).trans (dropPlaces_exact ..).le

theorem le_dropPlaces_spare {n : Nat} (some : spare n ≠ 0) : 2 ^ 52 ≤ dropPlaces n (spare n) :=
  (dropPlaces_exact ..).ge.trans (dropPlaces_mono (two_pow_spare_le some) _)

def powerOfTwo (places : Nat) : Magnitude := ⟨2 ^ 52, places, by decide, .inr (Nat.le_refl _)⟩

/-- The nearest magnitude. If rounding gives one digit more than there can be, it is a power of
two. -/
def ofUnits (n : Nat) : Magnitude :=
  if h : dropPlaces n (spare n) < 2 ^ 53 then
    { digits := dropPlaces n (spare n), places := spare n, digits_lt := h
      full := (Decidable.em _).imp_right le_dropPlaces_spare }
  else powerOfTwo (spare n + 1)

theorem rank_ofUnits (n : Nat) :
    (ofUnits n).rank = spare n * 2 ^ 52 + dropPlaces n (spare n) := by
  have le := dropPlaces_spare_le n
  unfold ofUnits
  split
  · rfl
  · simp only [rank, powerOfTwo]
    omega

theorem rank_ofUnits_mono {n n' : Nat} (le : n ≤ n') : (ofUnits n).rank ≤ (ofUnits n').rank := by
  rw [rank_ofUnits, rank_ofUnits]
  rcases Nat.eq_or_lt_of_le (spare_mono le) with same | fewer
  · rw [same]
    exact Nat.add_le_add_left (dropPlaces_mono le _) _
  · have := dropPlaces_spare_le n
    have := le_dropPlaces_spare (n := n') (Nat.ne_of_gt (Nat.zero_lt_of_lt fewer))
    omega

theorem units_ofUnits {digits : Nat} (few : digits < 2 ^ 53) (places : Nat) :
    (ofUnits (digits * 2 ^ places)).units = digits * 2 ^ places := by
  rcases Nat.eq_zero_or_pos digits with rfl | pos
  · rw [Nat.zero_mul]
    rfl
  · obtain ⟨n, made⟩ : ∃ n, n = digits * 2 ^ places := ⟨_, rfl⟩
    have log2 : n.log2 = digits.log2 + places := made ▸ log2_mul_two_pow pos places
    have log2_lt : digits.log2 < 53 := (Nat.log2_lt (by omega)).2 few
    -- What is dropped are zeros.
    have split : n = digits * 2 ^ (places - spare n) * 2 ^ spare n := by
      rw [Nat.mul_assoc, ← Nat.pow_add, Nat.sub_add_cancel, made]
      unfold spare
      omega
    have kept : dropPlaces n (spare n) = digits * 2 ^ (places - spare n) :=
      calc dropPlaces n (spare n)
          = dropPlaces (digits * 2 ^ (places - spare n) * 2 ^ spare n) (spare n) :=
            congrArg (dropPlaces · (spare n)) split
        _ = digits * 2 ^ (places - spare n) := dropPlaces_exact ..
    have few : dropPlaces n (spare n) < 2 ^ 53 := by
      rw [kept, ← Nat.log2_lt (Nat.mul_pos pos (Nat.two_pow_pos _)).ne', log2_mul_two_pow pos]
      unfold spare
      omega
    rw [← made, ofUnits, dif_pos few]
    change dropPlaces n (spare n) * 2 ^ spare n = n
    rw [kept, ← split]

theorem ofUnits_units (a : Magnitude) : ofUnits a.units = a := by
  have same : (ofUnits a.units).units = a.units := units_ofUnits a.digits_lt a.places
  exact eq_of_rank_eq (Nat.le_antisymm (units_le_iff.1 same.le) (units_le_iff.1 same.ge))

end Magnitude

end BlockStage.Scalar
