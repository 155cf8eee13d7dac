import BlockStage.Proofs.Scalar.Narrowing
import BlockStage.Script.Condition

/-! What stays a number. An infinite double is one, and a finite one added to it or taken from it
leaves a number; so numbers can be compared after any sum of that kind. Then which comparisons of
a number with a finite one agree. -/

namespace BlockStage

namespace Scalar

open Float.Model (Format UnpackedFloat)
open Float.Model.UnpackedFloat

/-! ### Numbers -/

theorem isNaN_round (format : Format) (sign : Sign) (digits : Nat) (exponent : Int) :
    (UnpackedFloat.round format sign digits exponent).isNaN = false := by
  unfold UnpackedFloat.round roundWithAccuracy
  dsimp only
  split <;> rfl

theorem isNaN_normalize (format : Format) (digits exponent : Int) (sign : Sign) :
    (UnpackedFloat.normalize format digits exponent sign).isNaN = false := by
  unfold UnpackedFloat.normalize
  split
  · exact isNaN_round _ _ _ _
  · rfl
  · exact isNaN_round _ _ _ _

variable {x y : Float}

theorem isNaN_of_isFinite (finite : x.isFinite = true) : x.isNaN = false := by
  change x.toModel.unpack.isFinite = true at finite
  change x.toModel.unpack.isNaN = false
  cases unpacked : x.toModel.unpack with
  | notANumber =>
    rw [unpacked] at finite
    contradiction
  | infinity | zero | finite => rfl

theorem isNaN_add (number : x.isNaN = false) (finite : y.isFinite = true) :
    (x + y).isNaN = false := by
  change (Float.Model.pack (UnpackedFloat.add .binary64 _ _)).unpack.isNaN = false
  rw [isNaN_unpack_pack]
  change x.toModel.unpack.isNaN = false at number
  change y.toModel.unpack.isFinite = true at finite
  generalize x.toModel.unpack = u at number ⊢
  generalize y.toModel.unpack = v at finite ⊢
  rcases u with s | _ | s | ⟨s, m, e, pos⟩ <;> rcases v with s' | _ | s' | ⟨s', m', e', pos'⟩ <;>
    first
      | contradiction
      | rfl
      | exact isNaN_normalize _ _ _ _
      | (cases s <;> cases s' <;> rfl)

theorem isNaN_sub (number : x.isNaN = false) (finite : y.isFinite = true) :
    (x - y).isNaN = false := by
  change (Float.Model.pack (UnpackedFloat.sub .binary64 _ _)).unpack.isNaN = false
  rw [isNaN_unpack_pack]
  change x.toModel.unpack.isNaN = false at number
  change y.toModel.unpack.isFinite = true at finite
  generalize x.toModel.unpack = u at number ⊢
  generalize y.toModel.unpack = v at finite ⊢
  rcases u with s | _ | s | ⟨s, m, e, pos⟩ <;> rcases v with s' | _ | s' | ⟨s', m', e', pos'⟩ <;>
    first
      | contradiction
      | rfl
      | exact isNaN_normalize _ _ _ _
      | (cases s <;> cases s' <;> rfl)

theorem isFinite_neg (finite : x.isFinite = true) : (-x).isFinite = true := by
  change x.toModel.unpack.isFinite = true at finite
  change (Float.Model.pack x.toModel.unpack.neg).unpack.isFinite = true
  rcases unpack_cases x.toModel with nan | ⟨sign, a, signed⟩
  · rw [nan] at finite
    contradiction
  · have turned : (Magnitude.withSign sign a).neg = Magnitude.withSign (-sign) a := by
      unfold Magnitude.withSign
      split
      · split <;> rfl
      · rfl
    rw [signed] at finite ⊢
    rw [turned, unpack_pack_withSign]
    unfold Magnitude.withSign at finite ⊢
    split
    · split <;> rfl
    · rw [if_neg ‹_›] at finite
      contradiction

theorem isFinite_of_between {z : Float} (above : y ≤ x) (below : x ≤ z) (low : y.isFinite = true)
    (high : z.isFinite = true) : x.isFinite = true := by
  have above : y.toModel.unpack.le x.toModel.unpack = true := of_decide_eq_true above
  have below : x.toModel.unpack.le z.toModel.unpack = true := of_decide_eq_true below
  change y.toModel.unpack.isFinite = true at low
  change z.toModel.unpack.isFinite = true at high
  change x.toModel.unpack.isFinite = true
  generalize y.toModel.unpack = u at above low
  generalize z.toModel.unpack = v at below high
  cases unpacked : x.toModel.unpack with
  | notANumber =>
    rw [unpacked] at above
    cases u <;> contradiction
  | infinity sign =>
    rw [unpacked] at above below
    cases sign with
    | positive => cases v <;> contradiction
    | negative => cases u <;> contradiction
  | zero | finite => rfl

theorem isNaN_abs (x : Float) : x.abs.isNaN = x.isNaN := by
  change (Float.Model.pack x.toModel.unpack.abs).unpack.isNaN = x.toModel.unpack.isNaN
  rw [isNaN_unpack_pack]
  cases x.toModel.unpack <;> rfl

theorem isNaN_ceil (x : Float) : (ceil x).isNaN = x.isNaN := by
  change (ceil x).toModel.unpack.isNaN = x.toModel.unpack.isNaN
  rw [ceil]
  cases unpacked : x.toModel.unpack with
  | finite sign m e pos =>
    dsimp only
    split
    · exact isNaN_unpack_pack _
    · exact (isNaN_unpack_pack _).trans (isNaN_normalize _ _ _ _)
  | notANumber => exact isNaN_unpack_pack _
  | infinity sign => exact isNaN_unpack_pack _
  | zero sign => exact isNaN_unpack_pack _

theorem isNaN_ofWord (n : Int64) : (ofWord n).isNaN = false :=
  (isNaN_unpack_pack _).trans (isNaN_normalize _ _ _ _)

theorem isNaN_larger_zero (x : Float) : (larger x 0).isNaN = false := by
  unfold larger
  split
  · rfl
  · split
    · rename_i same
      change x.toModel.unpack.isNaN = false
      change (x.toModel.unpack.compare x.toModel.unpack == some Ordering.eq) = true at same
      generalize x.toModel.unpack = u at same ⊢
      cases u <;> first | rfl | contradiction
    · rfl

theorem isNaN_smaller (hx : x.isNaN = false) (hy : y.isNaN = false) :
    (smaller x y).isNaN = false := by
  unfold smaller
  split
  · exact hy
  · split
    · exact hx
    · exact hy

/-! ### Comparisons that agree -/

theorem beq_self (number : x.isNaN = false) : (x == x) = true := by
  change UnpackedFloat.beq x.toModel.unpack x.toModel.unpack = true
  change x.toModel.unpack.isNaN = false at number
  cases unpacked : x.toModel.unpack with
  | notANumber =>
    rw [unpacked] at number
    contradiction
  | infinity sign => cases sign <;> rfl
  | zero sign => rfl
  | finite sign digits exponent positive =>
    cases sign <;> simp [UnpackedFloat.beq, UnpackedFloat.compare]

theorem compare_of_le (le : x ≤ y) (not_lt : ¬ x < y) :
    x.toModel.unpack.compare y.toModel.unpack = some .eq := by
  have le : x.toModel.unpack.le y.toModel.unpack = true := of_decide_eq_true le
  cases compared : x.toModel.unpack.compare y.toModel.unpack with
  | none =>
    rw [UnpackedFloat.le, compared] at le
    contradiction
  | some o =>
    cases o with
    | lt => exact absurd (lt_iff.2 compared) not_lt
    | eq => rfl
    | gt =>
      rw [UnpackedFloat.le, compared] at le
      contradiction

theorem sub_of_compare_eq {u v : UnpackedFloat} (same : u.compare v = some .eq)
    (finite : v.isFinite = true) : ∃ sign, UnpackedFloat.sub .binary64 u v = .zero sign := by
  cases u with
  | notANumber => contradiction
  | infinity s =>
    cases v with
    | notANumber | infinity => contradiction
    | zero s' => cases s <;> cases s' <;> simp [UnpackedFloat.compare] at same
    | finite s' => cases s <;> cases s' <;> simp [UnpackedFloat.compare] at same
  | zero s =>
    cases v with
    | notANumber | infinity => contradiction
    | zero s' => cases s <;> cases s' <;> exact ⟨_, rfl⟩
    | finite s' => cases s' <;> simp [UnpackedFloat.compare] at same
  | finite s m e pos =>
    cases v with
    | notANumber | infinity => contradiction
    | zero s' => cases s <;> simp [UnpackedFloat.compare] at same
    | finite s' m' e' pos' =>
      have equal : s = s' ∧ e = e' ∧ m = m' := by
        cases s <;> cases s' <;>
          simp_all [UnpackedFloat.compare, Ordering.then_eq_eq]
      obtain ⟨rfl, rfl, rfl⟩ := equal
      refine ⟨.positive, ?_⟩
      simp only [UnpackedFloat.sub, Int.sub_self, UnpackedFloat.normalize]
      rfl

theorem abs_sub_lt_tolerance (same : x.toModel.unpack.compare y.toModel.unpack = some .eq)
    (finite : y.isFinite = true) : (x - y).abs < Comparison.tolerance := by
  obtain ⟨sign, zero⟩ := sub_of_compare_eq same finite
  have difference : x - y = Float.ofModel (.pack (.zero sign)) :=
    congrArg (fun u => Float.ofModel (.pack u)) zero
  rw [difference]
  cases sign <;> decide

theorem tolerance_le_iff (number : x.isNaN = false) :
    Comparison.tolerance ≤ x ↔ ¬ x < Comparison.tolerance :=
  ⟨fun le lt => not_le_of_lt lt le, le_of_not_lt rfl number⟩

end Scalar

namespace Comparison

open Scalar

variable {x y : Float}

theorem holds_different (number : x.isNaN = false) (finite : y.isFinite = true) :
    different.holds x y = !equal.holds x y := by
  have apart := tolerance_le_iff ((isNaN_abs _).trans (isNaN_sub number finite))
  simp only [holds, apart, decide_not]

theorem holds_atMost_iff (number : x.isNaN = false) (finite : y.isFinite = true) :
    (atMost.holds x y = (less.holds x y || equal.holds x y)) ↔
      ¬ (y < x ∧ (x - y).abs < tolerance) := by
  rw [Bool.eq_iff_iff, Bool.or_eq_true]
  simp only [holds, decide_eq_true_eq]
  constructor
  · rintro agree ⟨above, close⟩
    exact not_le_of_lt above (agree.2 (.inr close))
  · intro coherent
    constructor
    · intro le
      by_cases below : x < y
      · exact .inl below
      · exact .inr (abs_sub_lt_tolerance (compare_of_le le below) finite)
    · rintro (below | close)
      · exact le_of_lt below
      · exact le_of_not_lt number (isNaN_of_isFinite finite) fun above => coherent ⟨above, close⟩

theorem holds_atLeast_iff (number : x.isNaN = false) (finite : y.isFinite = true) :
    (atLeast.holds x y = (greater.holds x y || equal.holds x y)) ↔
      ¬ (x < y ∧ (x - y).abs < tolerance) := by
  rw [Bool.eq_iff_iff, Bool.or_eq_true]
  simp only [holds, decide_eq_true_eq]
  constructor
  · rintro agree ⟨below, close⟩
    exact not_le_of_lt below (agree.2 (.inr close))
  · intro coherent
    constructor
    · intro le
      by_cases above : y < x
      · exact .inl above
      · refine .inr (abs_sub_lt_tolerance ?_ finite)
        rw [compare_swap, compare_of_le le above]
        rfl
    · rintro (above | close)
      · exact le_of_lt above
      · exact le_of_not_lt (isNaN_of_isFinite finite) number fun below => coherent ⟨below, close⟩

end Comparison
end BlockStage
