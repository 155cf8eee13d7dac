import BlockStage.Proofs.Scalar.Sums

/-! Singles made of doubles: which of them are finite. A double that is not below the middle between
the largest single and the power of two behind it becomes infinite. -/

namespace BlockStage.Scalar

open Float.Model (Format totalExponent UnpackedFloat)
open Float.Model.UnpackedFloat

/-! ### Rounding to singles -/

/-- A number of digits at an exponent, as rounding leaves it: as if there were no largest one. -/
def scaled (sign : Sign) (digits : Nat) (exponent : Int) : UnpackedFloat :=
  if h : digits = 0 then .zero sign else .finite sign digits exponent (Nat.pos_of_ne_zero h)

def singleExponent (digits : Nat) (exponent : Int) : Int :=
  max (digits.log2 + 1 + exponent - 24) (-149)

theorem targetExponent_single (digits : Nat) (exponent : Int) :
    Format.binary32.targetExponent (totalExponent digits exponent) =
      singleExponent digits exponent := rfl

theorem dropPlaces_single_le (digits : Nat) (exponent : Int) :
    dropPlaces digits (singleExponent digits exponent - exponent).toNat ≤ 2 ^ 24 := by
  have below : digits ≤ 2 ^ 24 * 2 ^ (singleExponent digits exponent - exponent).toNat :=
    calc digits ≤ 2 ^ (digits.log2 + 1) := Nat.lt_log2_self.le
      _ ≤ 2 ^ (24 + (singleExponent digits exponent - exponent).toNat) :=
        Nat.pow_le_pow_right Nat.two_pos (by unfold singleExponent; omega)
      _ = _ := Nat.pow_add ..
  exact (dropPlaces_mono below _).trans (dropPlaces_exact ..).le

theorem shiftToTargetExponent_single {digits : Nat} {exponent : Int} (le : digits ≤ 2 ^ 24)
    (least : -149 ≤ exponent) :
    shiftToTargetExponent .binary32 digits exponent .exact =
      if digits < 2 ^ 24 then (ExtendedMantissa.ofMantissaAndAccuracy digits .exact, exponent)
      else (ExtendedMantissa.ofMantissaAndAccuracy (2 ^ 23) .exact, exponent + 1) := by
  rw [shiftToTargetExponent, targetExponent_single, shiftToExponent, singleExponent]
  split
  · rename_i fits
    have log2_lt : digits.log2 < 24 := by
      rcases Nat.eq_zero_or_pos digits with rfl | pos
      · decide
      · exact (Nat.log2_lt pos.ne').2 fits
    have stays : (max ((digits.log2 : Int) + 1 + exponent - 24) (-149) - exponent).toNat = 0 := by
      omega
    rw [stays]
    exact congrArg (Prod.mk _) (Int.add_zero _)
  · rename_i full
    obtain rfl : digits = 2 ^ 24 := by omega
    have moves : (max (((2 ^ 24).log2 : Nat) + 1 + exponent - 24) (-149) - exponent).toNat = 1 := by
      rw [Nat.log2_two_pow]
      omega
    rw [moves]
    rfl

theorem roundWithAccuracy_single (sign : Sign) (digits : Nat) (exponent : Int) :
    roundWithAccuracy .binary32 sign digits exponent .exact =
      if dropPlaces digits (singleExponent digits exponent - exponent).toNat < 2 ^ 24 then
        scaled sign (dropPlaces digits (singleExponent digits exponent - exponent).toNat)
          (max exponent (singleExponent digits exponent))
      else scaled sign (2 ^ 23) (max exponent (singleExponent digits exponent) + 1) := by
  have shift : shiftToTargetExponent .binary32 digits exponent .exact =
      (ExtendedMantissa.ofMantissaAndAccuracy digits .exact >>>
        (singleExponent digits exponent - exponent).toNat,
        max exponent (singleExponent digits exponent)) := by
    rw [shiftToTargetExponent, targetExponent_single, shiftToExponent]
    congr 1
    omega
  have least : -149 ≤ max exponent (singleExponent digits exponent) :=
    (Int.le_max_right _ _).trans (Int.le_max_right _ _)
  have dropped : (ExtendedMantissa.ofMantissaAndAccuracy digits .exact >>>
      (singleExponent digits exponent - exponent).toNat).roundedMantissa =
        dropPlaces digits (singleExponent digits exponent - exponent).toNat := rfl
  rw [roundWithAccuracy, shift]
  simp only [dropped, shiftToTargetExponent_single (dropPlaces_single_le digits exponent) least]
  split
  · rfl
  · rfl

theorem unpack_pack_scaled (sign : Sign) (digits : Nat) (exponent : Int) :
    if digits = 0 ∨ exponent ≤ 104 then
      (Float32.Model.pack (scaled sign digits exponent)).unpack.isFinite = true
    else (Float32.Model.pack (scaled sign digits exponent)).unpack = .infinity sign := by
  rw [Float32.Model.pack, Float32.Model.unpack, UInt32.toBitVec_ofBitVec]
  by_cases none : digits = 0
  · rw [if_pos (.inl none), scaled, dif_pos none]
    cases sign <;> rfl
  · have finite {field : BitVec 8} {mantissa : BitVec 23} (some : field ≠ -1#8) :
        (UnpackedFloat.unpack .binary32 (packComponents .binary32 sign field mantissa)).isFinite =
          true := by
      simp only [UnpackedFloat.unpack, unpackExponent_packComponents, if_neg some]
      split
      · split <;> rfl
      · rfl
    obtain ⟨field, at_field⟩ : ∃ n, n = (exponent + (127 : Nat) + (23 : Nat)).toNat := ⟨_, rfl⟩
    have packed : UnpackedFloat.pack .binary32 (scaled sign digits exponent) =
        if 2 ^ 8 ≤ field + 1 then packedInfinity .binary32 sign
        else if digits.log2 + 1 = 24 then
          packComponents .binary32 sign (BitVec.ofNat 8 field) (BitVec.ofNat 23 digits)
        else packComponents .binary32 sign 0#8 (BitVec.ofNat 23 digits) := by
      rw [scaled, dif_neg none, at_field]
      rfl
    rw [packed]
    by_cases large : 2 ^ 8 ≤ field + 1
    · rw [if_pos large, if_neg (by omega)]
      cases sign <;> rfl
    · rw [if_neg large, if_pos (by omega)]
      split
      · refine finite fun all => large ?_
        have all : field % 2 ^ 8 = 255 := congrArg BitVec.toNat all
        omega
      · exact finite (by decide)

theorem isFinite_pack_scaled (sign : Sign) (digits : Nat) {exponent : Int}
    (small : exponent ≤ 104) :
    (Float32.Model.pack (scaled sign digits exponent)).unpack.isFinite = true := by
  simpa only [small, or_true, if_true] using unpack_pack_scaled sign digits exponent

/-! ### Doubles as singles -/

def Fits (digits : Nat) (exponent : Int) : Prop :=
  exponent < 75 ∨ exponent = 75 ∧ digits < 2 ^ 53 - 2 ^ 28

instance (digits : Nat) (exponent : Int) : Decidable (Fits digits exponent) :=
  inferInstanceAs (Decidable (_ ∨ _))

section Digits

variable {digits : Nat} {exponent : Int}

theorem dropPlaces_lt_of_fits (fits : digits < 2 ^ 53 - 2 ^ 28) :
    dropPlaces digits 29 < 2 ^ 24 := by
  have most : dropPlaces (2 ^ 53 - 2 ^ 28 - 1) 29 = 2 ^ 24 - 1 := by decide
  have le := dropPlaces_mono (show digits ≤ 2 ^ 53 - 2 ^ 28 - 1 by omega) 29
  omega

theorem le_dropPlaces_of_not_fits (large : 2 ^ 53 - 2 ^ 28 ≤ digits) :
    2 ^ 24 ≤ dropPlaces digits 29 := by
  have least : dropPlaces (2 ^ 53 - 2 ^ 28) 29 = 2 ^ 24 := by decide
  exact least.ge.trans (dropPlaces_mono large 29)

theorem le_dropPlaces_of_full (full : 2 ^ 52 ≤ digits) : 2 ^ 23 ≤ dropPlaces digits 29 := by
  have least : dropPlaces (2 ^ 52) 29 = 2 ^ 23 := by decide
  exact least.ge.trans (dropPlaces_mono full 29)

theorem unpack_pack_round_single (pos : 0 < digits) (few : digits < 2 ^ 53)
    (full : exponent = -1074 ∨ 2 ^ 52 ≤ digits) (sign : Sign) :
    if Fits digits exponent then
      (Float32.Model.pack (.round .binary32 sign digits exponent)).unpack.isFinite = true
    else
      (Float32.Model.pack (.round .binary32 sign digits exponent)).unpack = .infinity sign := by
  have log2_lt : digits.log2 < 53 := (Nat.log2_lt pos.ne').2 few
  have log2_of_full (full : 2 ^ 52 ≤ digits) : 52 ≤ digits.log2 := (Nat.le_log2 pos.ne').2 full
  have above : exponent ≤ singleExponent digits exponent := by
    unfold singleExponent
    rcases full with rfl | full
    · omega
    · have := log2_of_full full
      omega
  have rounds : UnpackedFloat.round .binary32 sign digits exponent =
      roundWithAccuracy .binary32 sign digits exponent .exact := by
    have none : (exponent - singleExponent digits exponent).toNat = 0 := by omega
    rw [UnpackedFloat.round, targetExponent_single, decreaseExponent, none]
    simp only [Nat.shiftLeft_zero, Int.natCast_zero, Int.sub_zero]
  have infinite {d : Nat} {e : Int} (some : d ≠ 0) (large : ¬ e ≤ 104) :
      (Float32.Model.pack (scaled sign d e)).unpack = .infinity sign := by
    simpa only [some, large, or_self, if_false] using unpack_pack_scaled sign d e
  rw [rounds, roundWithAccuracy_single, Int.max_eq_right above]
  by_cases small : exponent < 75
  · have : singleExponent digits exponent ≤ 103 := by
      unfold singleExponent
      omega
    rw [if_pos (.inl small)]
    split
    · exact isFinite_pack_scaled _ _ (by omega)
    · exact isFinite_pack_scaled _ _ (by omega)
  · -- So large a double has all its digits, and 29 of them are dropped.
    have full : 2 ^ 52 ≤ digits := full.resolve_left (by omega)
    have same : singleExponent digits exponent = exponent + 29 := by
      have := log2_of_full full
      unfold singleExponent
      omega
    have places : (exponent + 29 - exponent).toNat = 29 := by omega
    have some := le_dropPlaces_of_full full
    rw [same, places]
    by_cases fits : Fits digits exponent
    · obtain ⟨rfl, few⟩ := fits.resolve_left small
      rw [if_pos fits, if_pos (dropPlaces_lt_of_fits few)]
      exact isFinite_pack_scaled _ _ (by decide)
    · rw [if_neg fits]
      split
      · rename_i carried
        have : exponent ≠ 75 := fun last =>
          fits (.inr ⟨last, Nat.lt_of_not_le fun large =>
            Nat.not_le.2 carried (le_dropPlaces_of_not_fits large)⟩)
        exact infinite (by omega) (by omega)
      · exact infinite (by decide) (by omega)

end Digits

/-- The least double that is too large for a single, `2 ^ 128 - 2 ^ 103`. -/
def singleLimit : Float := 3.4028235677973366e38

theorem unpack_singleLimit :
    singleLimit.toModel.unpack = .finite .positive (2 ^ 53 - 2 ^ 28) 75 (by decide) ∧
      (-singleLimit).toModel.unpack = .finite .negative (2 ^ 53 - 2 ^ 28) 75 (by decide) := by
  have bits : singleLimit = .ofBits 0x47effffff0000000 := by decide +kernel
  have bits' : -singleLimit = .ofBits 0xc7effffff0000000 := by decide +kernel
  rw [bits', bits]
  exact ⟨rfl, rfl⟩

theorem lt_iff {x y : Float} : x < y ↔ x.toModel.unpack.compare y.toModel.unpack = some .lt := by
  refine ⟨compare_of_lt, fun less => decide_eq_true (?_ : UnpackedFloat.lt _ _ = true)⟩
  rw [UnpackedFloat.lt, less]
  rfl

theorem fits_iff_lt {digits : Nat} {exponent : Int} : Fits digits exponent ↔
    (compare exponent 75).then (compare digits (2 ^ 53 - 2 ^ 28)) = .lt := by
  rw [Ordering.then_eq_lt, Int.compare_eq_lt, Int.compare_eq_eq, Nat.compare_eq_lt, Fits]

theorem fits_iff_gt {digits : Nat} {exponent : Int} : Fits digits exponent ↔
    ((compare 75 exponent).then (compare (2 ^ 53 - 2 ^ 28) digits)).swap = .lt := by
  rw [Ordering.swap_then, Int.compare_swap, Nat.compare_swap, fits_iff_lt]

variable {x : Float}

/-- A finite double is in the range of singles, or becomes infinite on its side of zero. -/
theorem narrow_cases (finite : x.isFinite = true) :
    (-singleLimit < x ∧ x < singleLimit ∧ (narrow x).isFinite = true) ∨
      (-singleLimit < x ∧ ¬ x < singleLimit ∧ (narrow x).toModel.unpack = .infinity .positive) ∨
      (¬ -singleLimit < x ∧ x < singleLimit ∧ (narrow x).toModel.unpack = .infinity .negative) := by
  have finite : x.toModel.unpack.isFinite = true := finite
  simp only [lt_iff, unpack_singleLimit.1, unpack_singleLimit.2, narrow]
  rcases unpack_cases x.toModel with nan | ⟨sign, a, signed⟩
  · rw [nan] at finite
    contradiction
  rw [signed] at finite ⊢
  by_cases within : a.places < 2046
  · have few := a.digits_lt
    have full := a.full
    rw [Magnitude.withSign, if_pos within]
    split
    · exact .inl ⟨rfl, rfl, by cases sign <;> rfl⟩
    · rename_i some
      have rounds := unpack_pack_round_single (Nat.pos_of_ne_zero some) few
        (show (a.places : Int) - 1074 = -1074 ∨ 2 ^ 52 ≤ a.digits by omega) sign
      cases sign with
      | positive =>
        split at rounds
        · rename_i fits
          exact .inl ⟨rfl, congrArg Option.some (fits_iff_lt.1 fits), rounds⟩
        · rename_i large
          exact .inr (.inl ⟨rfl, fun less => large (fits_iff_lt.2 (Option.some.inj less)), rounds⟩)
      | negative =>
        split at rounds
        · rename_i fits
          exact .inl ⟨congrArg Option.some (fits_iff_gt.1 fits), rfl, rounds⟩
        · rename_i large
          exact .inr (.inr ⟨fun less => large (fits_iff_gt.2 (Option.some.inj less)), rfl, rounds⟩)
  · rw [Magnitude.withSign, if_neg within] at finite
    contradiction

theorem not_isFinite_of_unpack {y : Float32} {sign : Sign} (h : y.toModel.unpack = .infinity sign) :
    ¬ y.isFinite = true := fun finite => by
  change y.toModel.unpack.isFinite = true at finite
  rw [h] at finite
  contradiction

def Narrowable (x : Float) : Prop := -singleLimit < x ∧ x < singleLimit

instance (x : Float) : Decidable (Narrowable x) := inferInstanceAs (Decidable (_ ∧ _))

theorem isFinite_narrow_iff (finite : x.isFinite = true) :
    (narrow x).isFinite = true ↔ Narrowable x := by
  obtain ⟨above, below, single⟩ | ⟨-, large, single⟩ | ⟨large, -, single⟩ := narrow_cases finite
  · exact iff_of_true single ⟨above, below⟩
  · exact iff_of_false (not_isFinite_of_unpack single) fun range => large range.2
  · exact iff_of_false (not_isFinite_of_unpack single) fun range => large range.1

/-! ### Limited singles -/

theorem larger_eq_or {α : Type} [LT α] [DecidableLT α] [BEq α] (a b : α) :
    larger a b = a ∨ larger a b = b := by
  unfold larger
  split
  · exact .inr rfl
  · split
    · exact .inl rfl
    · exact .inr rfl

theorem clamp_eq_or {α : Type} [LT α] [DecidableLT α] (a low high : α) :
    clamp a low high = a ∨ clamp a low high = low ∨ clamp a low high = high := by
  unfold clamp
  split
  · exact .inr (.inl rfl)
  · split
    · exact .inr (.inr rfl)
    · exact .inl rfl

theorem lt_zero_of_unpack {y : Float32} (h : y.toModel.unpack = .infinity .negative) : y < 0 := by
  refine decide_eq_true (?_ : y.toModel.unpack.lt _ = true)
  rw [h]
  rfl

theorem not_lt_zero_of_unpack {y : Float32} (h : y.toModel.unpack = .infinity .positive) :
    ¬ y < 0 := fun less => by
  have less : y.toModel.unpack.lt _ = true := of_decide_eq_true less
  rw [h] at less
  contradiction

theorem isFinite_larger_narrow_iff (finite : x.isFinite = true) :
    (larger (narrow x) 0).isFinite = true ↔ x < singleLimit := by
  obtain ⟨-, below, single⟩ | ⟨-, large, single⟩ | ⟨-, below, single⟩ := narrow_cases finite
  · refine iff_of_true ?_ below
    obtain same | zero := larger_eq_or (narrow x) 0
    · rwa [same]
    · rw [zero]
      rfl
  · have same : (narrow x == narrow x) = true := by
      change UnpackedFloat.beq (narrow x).toModel.unpack (narrow x).toModel.unpack = true
      rw [single]
      rfl
    rw [larger, if_neg (not_lt_zero_of_unpack single), if_pos same]
    exact iff_of_false (not_isFinite_of_unpack single) large
  · rw [larger, if_pos (lt_zero_of_unpack single)]
    exact iff_of_true rfl below

theorem isFinite_clamp_narrow (finite : x.isFinite = true) :
    (clamp (narrow x) 0 1).isFinite = true := by
  obtain ⟨-, -, single⟩ | ⟨-, -, single⟩ | ⟨-, -, single⟩ := narrow_cases finite
  · obtain same | zero | one := clamp_eq_or (narrow x) 0 1
    · rwa [same]
    · rw [zero]
      rfl
    · rw [one]
      rfl
  · have above : 1 < narrow x := by
      refine decide_eq_true (?_ : UnpackedFloat.lt _ (narrow x).toModel.unpack = true)
      rw [single]
      rfl
    rw [clamp, if_neg (not_lt_zero_of_unpack single), if_pos above]
    rfl
  · rw [clamp, if_pos (lt_zero_of_unpack single)]
    rfl

/-! ### Degrees -/

theorem unpack_single_bounds {y : Float32.Model} {sign : Sign} {digits : Nat} {exponent : Int}
    {pos : 0 < digits} (h : y.unpack = .finite sign digits exponent pos) :
    digits < 2 ^ 24 ∧ exponent ≤ 104 := by
  obtain ⟨field, at_field⟩ : ∃ v : BitVec 8,
    v = @unpackExponent .binary32 y.toBits.toBitVec := ⟨_, rfl⟩
  obtain ⟨mantissa, at_mantissa⟩ : ∃ v : BitVec 23,
    v = @unpackMantissa .binary32 y.toBits.toBitVec := ⟨_, rfl⟩
  have field_lt := field.isLt
  have mantissa_lt := mantissa.isLt
  rw [Float32.Model.unpack, UnpackedFloat.unpack] at h
  simp only [← at_field, ← at_mantissa] at h
  split at h
  · split at h <;> contradiction
  · rename_i some
    have within : field.toNat ≠ 255 := fun all => some (BitVec.eq_of_toNat_eq all)
    split at h
    · rename_i none
      split at h
      · contradiction
      · injection h with _ same last
        subst same last none
        exact ⟨by omega, by decide⟩
    · injection h with _ same last
      have implicit := toNat_implicit mantissa
      subst same last
      refine ⟨by omega, ?_⟩
      change (field.toNat : Int) - (127 + 23) ≤ 104
      omega

theorem isFinite_mul_radian (y : Float32) :
    (y * (3.1415927 / 180 : Float32)).isFinite = y.isFinite := by
  have bits : (3.1415927 / 180 : Float32) = .ofBits 0x3c8efa35 := by decide +kernel
  have radian : (3.1415927 / 180 : Float32).toModel.unpack =
      .finite .positive 0x8efa35 (-29) (by decide) := by
    rw [bits]
    rfl
  change (Float32.Model.pack (UnpackedFloat.mul .binary32 y.toModel.unpack _)).unpack.isFinite =
    y.toModel.unpack.isFinite
  rw [radian]
  cases h : y.toModel.unpack with
  | notANumber => rfl
  | infinity sign => cases sign <;> rfl
  | zero sign => cases sign <;> rfl
  | finite sign digits exponent pos =>
    obtain ⟨few, small⟩ := unpack_single_bounds h
    -- The factor is below one: its exponent makes up for the digits it adds.
    have product_pos : digits * 0x8efa35 ≠ 0 := by omega
    have log2_lt : (digits * 0x8efa35).log2 < 48 := (Nat.log2_lt product_pos).2 (by omega)
    have least : max (exponent + -29) (singleExponent (digits * 0x8efa35) (exponent + -29)) ≤
        103 := by
      unfold singleExponent
      omega
    change (Float32.Model.pack (roundWithAccuracy .binary32 _ (digits * 0x8efa35)
      (exponent + -29) .exact)).unpack.isFinite = true
    rw [roundWithAccuracy_single]
    split
    · exact isFinite_pack_scaled _ _ (by omega)
    · exact isFinite_pack_scaled _ _ (by omega)

end BlockStage.Scalar
