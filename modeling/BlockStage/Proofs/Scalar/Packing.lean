import BlockStage.Proofs.Scalar.Rounding
import Mathlib

/-! Doubles taken apart and put together: what is unpacked has a magnitude, packing loses nothing of
it, and rounding gives the double nearest to a whole number of least units. -/

namespace BlockStage.Scalar

open Float.Model (Format totalExponent UnpackedFloat)
open Float.Model.UnpackedFloat

namespace Magnitude

def bottom : Magnitude := ⟨0, 0, by decide, .inl rfl⟩

def top : Magnitude := powerOfTwo 2046

/-- The double of a magnitude; one that is too large is infinite. -/
def withSign (sign : Sign) (a : Magnitude) : UnpackedFloat :=
  if a.places < 2046 then
    if h : a.digits = 0 then .zero sign
    else .finite sign a.digits (a.places - 1074) (Nat.pos_of_ne_zero h)
  else .infinity sign

end Magnitude

open Magnitude

theorem toNat_implicit {width : Nat} (m : BitVec width) :
    (1#1 ++ m).toNat = 2 ^ width + m.toNat := by
  rw [BitVec.toNat_append, ← Nat.shiftLeft_add_eq_or_of_lt m.isLt, Nat.shiftLeft_eq]
  exact congrArg (· + m.toNat) (Nat.one_mul _)

theorem unpack_cases (f : Float.Model) :
    f.unpack = .notANumber ∨ ∃ sign a, f.unpack = withSign sign a := by
  obtain ⟨sign, at_sign⟩ : ∃ sign,
    sign = Sign.ofBitVec (@unpackSign .binary64 f.toBits.toBitVec) := ⟨_, rfl⟩
  obtain ⟨exponent, at_exponent⟩ : ∃ v : BitVec 11,
    v = @unpackExponent .binary64 f.toBits.toBitVec := ⟨_, rfl⟩
  obtain ⟨digits, at_digits⟩ : ∃ v : BitVec 52,
    v = @unpackMantissa .binary64 f.toBits.toBitVec := ⟨_, rfl⟩
  have digits_lt := digits.isLt
  rw [Float.Model.unpack, UnpackedFloat.unpack]
  simp only [← at_sign, ← at_exponent, ← at_digits]
  split
  · split
    · exact .inr ⟨sign, top, rfl⟩
    · exact .inl rfl
  · rename_i finite
    split
    · split
      · exact .inr ⟨sign, bottom, rfl⟩
      · rename_i least some
        have pos : digits.toNat ≠ 0 := fun none => some (BitVec.eq_of_toNat_eq none)
        refine .inr ⟨sign, ⟨digits.toNat, 0, by omega, .inl rfl⟩, ?_⟩
        rw [withSign, if_pos (Nat.zero_lt_succ _), dif_neg pos]
        congr 1
        rw [least]
        rfl
    · rename_i some
      have pos : exponent.toNat ≠ 0 := fun none => some (BitVec.eq_of_toNat_eq none)
      have within : exponent.toNat < 2047 := by
        have := exponent.isLt
        have : exponent.toNat ≠ 2047 := fun all => finite (BitVec.eq_of_toNat_eq all)
        omega
      have implicit := toNat_implicit digits
      refine .inr ⟨sign, ⟨(1#1 ++ digits).toNat, exponent.toNat - 1, by omega, .inr (by omega)⟩, ?_⟩
      rw [withSign, if_pos (by simp only; omega), dif_neg (by simp only; omega)]
      congr 1
      change (exponent.toNat : Int) - (1023 + 52) = _
      simp only
      omega

theorem pack_full {a : Magnitude} (finite : a.places < 2046) (full : 2 ^ 52 ≤ a.digits)
    (sign : Sign) :
    UnpackedFloat.pack .binary64 (a.withSign sign) =
      packComponents .binary64 sign (BitVec.ofNat 11 (a.places + 1))
        (BitVec.ofNat 52 a.digits) := by
  have some : a.digits ≠ 0 := by omega
  have field : ((a.places : Int) - 1074 + (1023 : Nat) + (52 : Nat)).toNat = a.places + 1 := by
    omega
  have fits : ¬ 2 ^ 11 ≤ a.places + 1 + 1 := by omega
  have normal : a.digits.log2 + 1 = 53 :=
    congrArg (· + 1) ((Nat.log2_eq_iff some).2 ⟨full, a.digits_lt⟩)
  rw [withSign, if_pos finite, dif_neg some]
  change (if 2 ^ 11 ≤ ((a.places : Int) - 1074 + (1023 : Nat) + (52 : Nat)).toNat + 1 then _
    else if a.digits.log2 + 1 = 53 then packComponents .binary64 sign
      (BitVec.ofNat 11 ((a.places : Int) - 1074 + (1023 : Nat) + (52 : Nat)).toNat) _ else _) = _
  rw [field, if_neg fits, if_pos normal]

theorem pack_few {a : Magnitude} (few : a.digits < 2 ^ 52) (sign : Sign) :
    UnpackedFloat.pack .binary64 (a.withSign sign) =
      packComponents .binary64 sign 0#11 (BitVec.ofNat 52 a.digits) := by
  have least : a.places = 0 := a.full.resolve_right (by omega)
  rw [withSign, if_pos (by omega)]
  split
  · rename_i none
    rw [none]
    rfl
  · rename_i some
    have subnormal : ¬ a.digits.log2 + 1 = 53 := by
      have := (Nat.log2_lt some).2 few
      omega
    rw [least]
    change (if a.digits.log2 + 1 = 53 then _ else _) = _
    rw [if_neg subnormal]

theorem unpack_few {n : Nat} (few : n < 2 ^ 52) (sign : Sign) :
    UnpackedFloat.unpack .binary64 (packComponents .binary64 sign 0#11 (BitVec.ofNat 52 n)) =
      withSign sign ⟨n, 0, by omega, .inl rfl⟩ := by
  have digits : (BitVec.ofNat 52 n).toNat = n := Nat.mod_eq_of_lt few
  have none_iff : BitVec.ofNat 52 n = 0#52 ↔ n = 0 := by
    rw [← BitVec.toNat_inj, digits]
    rfl
  rw [UnpackedFloat.unpack]
  simp only [unpackExponent_packComponents, unpackMantissa_packComponents,
    unpackSign_packComponents, Sign.ofBitVec_toBitVec, digits]
  rw [if_neg (by decide), if_pos trivial, withSign, if_pos (Nat.zero_lt_succ _)]
  by_cases none : n = 0
  · rw [dif_pos (none_iff.2 none), dif_pos none]
  · rw [dif_neg (mt none_iff.1 none), dif_neg none]
    rfl

theorem unpack_full {a : Magnitude} (finite : a.places < 2046) (full : 2 ^ 52 ≤ a.digits)
    (sign : Sign) :
    UnpackedFloat.unpack .binary64 (packComponents .binary64 sign (BitVec.ofNat 11 (a.places + 1))
      (BitVec.ofNat 52 a.digits)) = a.withSign sign := by
  have digits_lt := a.digits_lt
  have field : (BitVec.ofNat 11 (a.places + 1)).toNat = a.places + 1 :=
    Nat.mod_eq_of_lt (by omega)
  have digits : (1#1 ++ BitVec.ofNat 52 a.digits).toNat = a.digits := by
    rw [toNat_implicit, BitVec.toNat_ofNat]
    omega
  have below : BitVec.ofNat 11 (a.places + 1) ≠ -1#11 := fun all => by
    have all : a.places + 1 = 2047 := field.symm.trans (congrArg BitVec.toNat all)
    omega
  have above : BitVec.ofNat 11 (a.places + 1) ≠ 0#11 := fun none =>
    Nat.succ_ne_zero _ (field.symm.trans (congrArg BitVec.toNat none))
  rw [UnpackedFloat.unpack]
  simp only [unpackExponent_packComponents, unpackMantissa_packComponents,
    unpackSign_packComponents, Sign.ofBitVec_toBitVec, digits, field]
  rw [if_neg below, if_neg above, withSign, if_pos finite, dif_neg (by omega)]
  congr 1
  change ((a.places + 1 : Nat) : Int) - (1023 + 52) = _
  omega

theorem unpack_pack_withSign (sign : Sign) (a : Magnitude) :
    (Float.Model.pack (a.withSign sign)).unpack = a.withSign sign := by
  rw [Float.Model.pack, Float.Model.unpack, UInt64.toBitVec_ofBitVec]
  by_cases finite : a.places < 2046
  · by_cases few : a.digits < 2 ^ 52
    · obtain ⟨digits, places, digits_lt, full⟩ := a
      obtain rfl : places = 0 := full.resolve_right (Nat.not_le.2 few)
      rw [pack_few few, unpack_few few]
    · have full : 2 ^ 52 ≤ a.digits := Nat.not_lt.1 few
      rw [pack_full finite full, unpack_full finite full]
  · rw [withSign, if_neg finite]
    simp [UnpackedFloat.pack, packedInfinity, UnpackedFloat.unpack]

/-- The magnitude with a sign, as rounding gives it: as if there were no largest one. -/
def rounded (sign : Sign) (a : Magnitude) : UnpackedFloat :=
  if h : a.digits = 0 then .zero sign
  else .finite sign a.digits (a.places - 1074) (Nat.pos_of_ne_zero h)

theorem targetExponent_eq {m : Nat} (pos : 0 < m) (places : Nat) :
    Format.binary64.targetExponent (totalExponent m (places - 1074)) =
      (spare (m * 2 ^ places) : Int) - 1074 := by
  rw [spare, log2_mul_two_pow pos]
  change max ((m.log2 : Int) + 1 + (places - 1074) - 53) (-1074) = _
  omega

theorem shiftToTargetExponent_again {r : Nat} (pos : 0 < r) (le : r ≤ 2 ^ 53) (places : Nat) :
    shiftToTargetExponent .binary64 r (places - 1074) .exact =
      if r < 2 ^ 53 then (ExtendedMantissa.ofMantissaAndAccuracy r .exact, (places : Int) - 1074)
      else (ExtendedMantissa.ofMantissaAndAccuracy (2 ^ 52) .exact, (places + 1 : Nat) - 1074) := by
  rw [shiftToTargetExponent, targetExponent_eq pos, spare, log2_mul_two_pow pos, shiftToExponent]
  split
  · rename_i fits
    have log2_lt := (Nat.log2_lt (Nat.ne_of_gt pos)).2 fits
    have stays : ((r.log2 + places - 52 : Nat) - 1074 - ((places : Int) - 1074)).toNat = 0 := by
      omega
    rw [stays]
    congr 1
    exact Int.add_zero _
  · rename_i full
    obtain rfl : r = 2 ^ 53 := by omega
    have moves : (((2 ^ 53).log2 + places - 52 : Nat) - 1074 - ((places : Int) - 1074)).toNat =
        1 := by
      rw [Nat.log2_two_pow]
      omega
    rw [moves]
    congr 1
    omega

theorem roundWithAccuracy_eq {m places : Nat} (pos : 0 < m)
    (le : places ≤ spare (m * 2 ^ places)) (sign : Sign) :
    roundWithAccuracy .binary64 sign m (places - 1074) .exact =
      rounded sign (ofUnits (m * 2 ^ places)) := by
  obtain ⟨n, made⟩ : ∃ n, n = m * 2 ^ places := ⟨_, rfl⟩
  rw [← made] at le ⊢
  have shift : shiftToTargetExponent .binary64 m (places - 1074) .exact =
      (ExtendedMantissa.ofMantissaAndAccuracy m .exact >>> (spare n - places),
        (spare n : Int) - 1074) := by
    rw [shiftToTargetExponent, targetExponent_eq pos, ← made, shiftToExponent]
    have dropped : ((spare n : Int) - 1074 - (places - 1074)).toNat = spare n - places := by omega
    rw [dropped]
    congr 1
    omega
  have dropped : (ExtendedMantissa.ofMantissaAndAccuracy m .exact >>>
      (spare n - places)).roundedMantissa = dropPlaces n (spare n) :=
    calc dropPlaces m (spare n - places)
        = dropPlaces (m * 2 ^ places) (places + (spare n - places)) := (dropPlaces_mul ..).symm
      _ = dropPlaces n (spare n) := by rw [← made, Nat.add_sub_cancel' le]
  have some : 0 < dropPlaces n (spare n) := by
    by_cases all : spare n = 0
    · rw [all, made]
      exact Nat.mul_pos pos (Nat.two_pow_pos _)
    · exact Nat.lt_of_lt_of_le (by decide) (le_dropPlaces_spare all)
  rw [roundWithAccuracy, shift]
  simp only [dropped, shiftToTargetExponent_again some (dropPlaces_spare_le n), rounded, ofUnits]
  split
  · rfl
  · rfl

theorem round_eq {m : Nat} (pos : 0 < m) (places : Nat) (sign : Sign) :
    UnpackedFloat.round .binary64 sign m (places - 1074) =
      rounded sign (ofUnits (m * 2 ^ places)) := by
  obtain ⟨n, made⟩ : ∃ n, n = m * 2 ^ places := ⟨_, rfl⟩
  rw [UnpackedFloat.round, targetExponent_eq pos, decreaseExponent, ← made]
  by_cases le : places ≤ spare n
  · have none : ((places : Int) - 1074 - (spare n - 1074)).toNat = 0 := by omega
    rw [none, made]
    simpa using roundWithAccuracy_eq pos (made ▸ le) sign
  · -- There is room for digits below, which are zero.
    have more : ((places : Int) - 1074 - (spare n - 1074)).toNat = places - spare n := by omega
    have exponent : (places : Int) - 1074 - (places - spare n : Nat) = spare n - 1074 := by omega
    have same : (m <<< (places - spare n)) * 2 ^ spare n = n := by
      rw [Nat.shiftLeft_eq, Nat.mul_assoc, ← Nat.pow_add, Nat.sub_add_cancel (by omega), made]
    have shifted_pos : 0 < m <<< (places - spare n) := by
      rw [Nat.shiftLeft_eq]
      exact Nat.mul_pos pos (Nat.two_pow_pos _)
    have le : spare n ≤ spare ((m <<< (places - spare n)) * 2 ^ spare n) := by rw [same]
    have rounds := roundWithAccuracy_eq shifted_pos le sign
    rw [more]
    simp only [exponent]
    rw [rounds, same]

theorem pack_rounded (sign : Sign) (a : Magnitude) :
    Float.Model.pack (rounded sign a) = Float.Model.pack (a.withSign sign) := by
  rw [withSign]
  split
  · rfl
  · rename_i large
    have outside : 2 ^ 11 ≤ ((a.places : Int) - 1074 + (1023 : Nat) + (52 : Nat)).toNat + 1 := by
      omega
    have some : a.digits ≠ 0 := by
      have := a.full
      omega
    have packed : UnpackedFloat.pack .binary64 (rounded sign a) =
        packedInfinity .binary64 sign := by
      rw [rounded, dif_neg some]
      exact if_pos outside
    simp only [Float.Model.pack, packed]
    rfl

theorem unpack_pack_round {m : Nat} (pos : 0 < m) (places : Nat) (sign : Sign) :
    (Float.Model.pack (UnpackedFloat.round .binary64 sign m (places - 1074))).unpack =
      (ofUnits (m * 2 ^ places)).withSign sign := by
  rw [round_eq pos, pack_rounded, unpack_pack_withSign]

def nearest (n : Int) : UnpackedFloat :=
  match compare n 0 with
  | .lt => withSign .negative (ofUnits n.natAbs)
  | .eq => .zero .positive
  | .gt => withSign .positive (ofUnits n.natAbs)

theorem unpack_pack_normalize (n : Int) (places : Nat) :
    (Float.Model.pack (.normalize .binary64 n (places - 1074) .positive)).unpack =
      nearest (n * 2 ^ places) := by
  have some : (0 : Int) < 2 ^ places := Int.pow_pos (by decide)
  have units : (n * 2 ^ places).natAbs = n.natAbs * 2 ^ places := by
    rw [Int.natAbs_mul, Int.natAbs_pow]
    rfl
  rw [nearest, UnpackedFloat.normalize, units]
  rcases Int.lt_trichotomy n 0 with less | rfl | more
  · have lt : compare n 0 = .lt := Int.compare_eq_lt.2 less
    have lt' : compare (n * 2 ^ places) 0 = .lt :=
      Int.compare_eq_lt.2 (Int.mul_neg_of_neg_of_pos less some)
    have same : (-n).toNat = n.natAbs := by omega
    rw [lt, lt', same]
    exact unpack_pack_round (Int.natAbs_pos.2 less.ne) places .negative
  · rw [Int.zero_mul]
    exact unpack_pack_withSign .positive bottom
  · have gt : compare n 0 = .gt := Int.compare_eq_gt.2 more
    have gt' : compare (n * 2 ^ places) 0 = .gt := Int.compare_eq_gt.2 (Int.mul_pos more some)
    have same : n.toNat = n.natAbs := by omega
    rw [gt, gt', same]
    exact unpack_pack_round (Int.natAbs_pos.2 more.ne') places .positive

theorem isNaN_unpack_pack (u : UnpackedFloat) : (Float.Model.pack u).unpack.isNaN = u.isNaN := by
  rw [Float.Model.pack, Float.Model.unpack, UInt64.toBitVec_ofBitVec]
  cases u with
  | notANumber => rfl
  | infinity sign => cases sign <;> rfl
  | zero sign => cases sign <;> rfl
  | finite sign m e pos =>
    have number {exponent : BitVec 11} {mantissa : BitVec 52} (some : exponent ≠ -1#11) :
        (UnpackedFloat.unpack .binary64 (packComponents .binary64 sign exponent mantissa)).isNaN =
          false := by
      simp only [UnpackedFloat.unpack, unpackExponent_packComponents, if_neg some]
      split
      · split <;> rfl
      · rfl
    obtain ⟨field, at_field⟩ : ∃ n, n = (e + (1023 : Nat) + (52 : Nat)).toNat := ⟨_, rfl⟩
    change (UnpackedFloat.unpack .binary64 (if 2 ^ 11 ≤ (e + (1023 : Nat) + (52 : Nat)).toNat + 1
      then packedInfinity .binary64 sign else if m.log2 + 1 = 53 then
        packComponents .binary64 sign (BitVec.ofNat 11 (e + (1023 : Nat) + (52 : Nat)).toNat)
          (BitVec.ofNat 52 m)
      else packComponents .binary64 sign 0#11 (BitVec.ofNat 52 m))).isNaN = false
    rw [← at_field]
    split
    · cases sign <;> rfl
    · rename_i fits
      split
      · refine number fun all => fits ?_
        have all : field % 2 ^ 11 = 2047 := congrArg BitVec.toNat all
        omega
      · exact number (by decide)

end BlockStage.Scalar
