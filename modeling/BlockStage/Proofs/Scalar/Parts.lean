import BlockStage.Proofs.Scalar.Wholes
import BlockStage.Proofs.Scene.Colours

/-! Parts of one: a whole number below `2 ^ 24`, divided by `2 ^ 24`. Neither the division loses a
digit, nor widening what is left of it, nor taking it a hundred times. -/

namespace BlockStage.Scalar

open Float.Model (Format totalExponent UnpackedFloat)
open Float.Model.UnpackedFloat
open Magnitude

def part (k : Nat) : Float32 := ofNatSingle k / 16777216

theorem unpack_parts : (16777216 : Float32).toModel.unpack =
    .finite .positive (2 ^ 23) 1 (by decide) := by
  have bits : (16777216 : Float32) = .ofBits 0x4b800000 := by decide +kernel
  rw [bits]
  rfl

theorem targetExponent_binary32 (total : Int) :
    Format.binary32.targetExponent total = max (total - 24) (-149) := rfl

section Division

variable {digits : Nat} {exponent : Int}

theorem divCore_parts (full : 2 ^ 23 ≤ digits) (few : digits < 2 ^ 24) (least : -124 ≤ exponent) :
    divCore .binary32 digits exponent (2 ^ 23) 1 = (digits * 2 ^ 1, exponent - 25, .exact) := by
  have log2 : digits.log2 = 23 := (Nat.log2_eq_iff (by omega)).2 ⟨full, few⟩
  have total : totalExponent digits exponent - totalExponent (2 ^ 23) 1 = exponent - 1 := by
    rw [totalExponent, totalExponent, log2, Nat.log2_two_pow]
    omega
  have target : min (exponent - 1) (Format.binary32.targetExponent (exponent - 1)) =
      exponent - 25 := by
    rw [targetExponent_binary32]
    omega
  have shift : (exponent - 1 - (exponent - 25)).toNat = 24 := by omega
  have quotient : digits <<< 24 / 2 ^ 23 = digits * 2 ^ 1 ∧ digits <<< 24 % 2 ^ 23 = 0 := by
    rw [Nat.shiftLeft_eq]
    omega
  rw [divCore]
  simp only [total, target, shift, quotient.1, quotient.2]
  rfl

theorem div_parts {pos : 0 < digits} (full : 2 ^ 23 ≤ digits) (few : digits < 2 ^ 24)
    (least : -124 ≤ exponent) :
    UnpackedFloat.div .binary32 (.finite .positive digits exponent pos)
      (.finite .positive (2 ^ 23) 1 (by decide)) =
        .finite .positive digits (exponent - 24) pos := by
  have log2 : digits.log2 = 23 := (Nat.log2_eq_iff pos.ne').2 ⟨full, few⟩
  have last : singleExponent (digits * 2 ^ 1) (exponent - 25) = exponent - 24 := by
    rw [singleExponent, log2_mul_two_pow pos]
    omega
  have dropped : (exponent - 24 - (exponent - 25)).toNat = 1 := by omega
  rw [UnpackedFloat.div, divCore_parts full few least]
  change roundWithAccuracy .binary32 .positive (digits * 2 ^ 1) (exponent - 25) .exact = _
  rw [roundWithAccuracy_single, last, dropped, dropPlaces_exact, if_pos few,
    Int.max_eq_right (by omega), scaled, dif_neg pos.ne']

theorem unpack_div_parts {x : Float32} {pos : 0 < digits}
    (h : x.toModel.unpack = .finite .positive digits exponent pos) (full : 2 ^ 23 ≤ digits)
    (few : digits < 2 ^ 24) (least : -124 ≤ exponent) (most : exponent ≤ 104) :
    (x / 16777216).toModel.unpack = .finite .positive digits (exponent - 24) pos := by
  change (Float32.Model.pack (UnpackedFloat.div .binary32 x.toModel.unpack
    (16777216 : Float32).toModel.unpack)).unpack = _
  rw [h, unpack_parts, div_parts full few least]
  exact unpack_pack_single full few (by omega) (by omega) _ _

end Division

variable {k : Nat}

theorem unpack_part (pos : 0 < k) (few : k < 2 ^ 24) :
    (part k).toModel.unpack =
      .finite .positive (k * 2 ^ (23 - k.log2)) (k.log2 - 23 - 24 : Int)
        (Nat.mul_pos pos (Nat.two_pow_pos _)) := by
  have log2_lt : k.log2 < 24 := (Nat.log2_lt pos.ne').2 few
  have log2 : (k * 2 ^ (23 - k.log2)).log2 = 23 := by
    rw [log2_mul_two_pow pos]
    omega
  obtain ⟨full, below⟩ := (Nat.log2_eq_iff (Nat.mul_pos pos (Nat.two_pow_pos _)).ne').1 log2
  exact unpack_div_parts (unpack_ofNatSingle_few pos few) full below (by omega) (by omega)

theorem part_zero : part 0 = 0 := by decide +kernel

theorem isFinite_part (few : k < 2 ^ 24) : (part k).isFinite = true := by
  rcases Nat.eq_zero_or_pos k with rfl | pos
  · decide +kernel
  · change (part k).toModel.unpack.isFinite = true
    rw [unpack_part pos few]
    rfl

theorem value_part (few : k < 2 ^ 24) : value (part k) = k / 2 ^ 24 := by
  rcases Nat.eq_zero_or_pos k with rfl | pos
  · rw [part_zero, Nat.cast_zero, zero_div]
    rfl
  · have log2_lt : k.log2 < 24 := (Nat.log2_lt pos.ne').2 few
    have exponent : (k.log2 - 23 - 24 : Int) = -(23 - k.log2 : Nat) - 24 := by omega
    rw [value, unpack_part pos few]
    change (((k * 2 ^ (23 - k.log2) : Nat) : Int) : ℚ) * 2 ^ (k.log2 - 23 - 24 : Int) = _
    rw [exponent, zpow_sub₀ two_ne_zero, zpow_neg, zpow_natCast]
    push_cast
    field_simp
    norm_cast

/-! ### In percent -/

/-- The least double is `2 ^ 1050` times less than a part. -/
def partPlaces : Nat := 1050

theorem unpack_widen_part (pos : 0 < k) (few : k < 2 ^ 24) :
    (widen (part k)).toModel.unpack = (ofUnits (k * 2 ^ partPlaces)).withSign .positive := by
  have log2_lt : k.log2 < 24 := (Nat.log2_lt pos.ne').2 few
  have exponent : (k.log2 - 23 - 24 : Int) = ((k.log2 + 1027 : Nat) : Int) - 1074 := by omega
  have places : 23 - k.log2 + (k.log2 + 1027) = partPlaces := by
    unfold partPlaces
    omega
  rw [widen, unpack_part pos few]
  simp only [exponent]
  change (Float.Model.pack _).unpack = _
  rw [unpack_pack_round (Nat.mul_pos pos (Nat.two_pow_pos _)), Nat.mul_assoc, ← Nat.pow_add, places]

theorem unpack_hundred : (100 : Float).toModel.unpack =
    .finite .positive (100 * 2 ^ 46) (-46) (by decide) := by
  have bits : (100 : Float) = .ofBits 0x4059000000000000 := by decide +kernel
  rw [bits]
  rfl

theorem unpack_mul_hundred {x : Float} {a : Magnitude}
    (h : x.toModel.unpack = a.withSign .positive) (least : 46 ≤ a.places)
    (finite : a.places < 2046) :
    (x * 100).toModel.unpack = (ofUnits (100 * a.units)).withSign .positive := by
  have full : 2 ^ 52 ≤ a.digits := a.full.resolve_left (by omega)
  have some : 0 < a.digits := Nat.lt_of_lt_of_le (Nat.two_pow_pos 52) full
  have product_pos : 0 < a.digits * (100 * 2 ^ 46) := Nat.mul_pos some (by decide)
  have exponent : (a.places : Int) - 1074 + -46 = ((a.places - 46 : Nat) : Int) - 1074 := by omega
  have product : a.digits * (100 * 2 ^ 46) * 2 ^ (a.places - 46) = 100 * a.units :=
    calc a.digits * (100 * 2 ^ 46) * 2 ^ (a.places - 46)
        = 100 * (a.digits * (2 ^ 46 * 2 ^ (a.places - 46))) := by ring
      _ = 100 * a.units := by rw [← Nat.pow_add, Nat.add_sub_cancel' least, units]
  have room : a.places - 46 ≤ spare (a.digits * (100 * 2 ^ 46) * 2 ^ (a.places - 46)) := by
    have log2_le : 52 ≤ (a.digits * (100 * 2 ^ 46)).log2 :=
      (Nat.le_log2 product_pos.ne').2 (by omega)
    rw [spare, log2_mul_two_pow product_pos]
    omega
  change (Float.Model.pack (UnpackedFloat.mul .binary64 x.toModel.unpack
    (100 : Float).toModel.unpack)).unpack = _
  rw [h, unpack_hundred, withSign, if_pos finite, dif_neg some.ne']
  change (Float.Model.pack (roundWithAccuracy .binary64 .positive (a.digits * (100 * 2 ^ 46))
    ((a.places : Int) - 1074 + -46) .exact)).unpack = _
  rw [exponent, roundWithAccuracy_eq product_pos room, product, pack_rounded, unpack_pack_withSign]

theorem places_ofUnits_part (pos : 0 < k) (few : k < 2 ^ 24) :
    46 ≤ (ofUnits (k * 2 ^ partPlaces)).places ∧ (ofUnits (k * 2 ^ partPlaces)).places < 2046 := by
  have exact_units : (ofUnits (k * 2 ^ partPlaces)).units = k * 2 ^ partPlaces :=
    units_ofUnits (by omega) _
  generalize ofUnits (k * 2 ^ partPlaces) = a at exact_units ⊢
  have some : 0 < a.digits := Nat.pos_of_ne_zero fun none => by
    rw [units, none, Nat.zero_mul] at exact_units
    exact (Nat.mul_pos pos (Nat.two_pow_pos partPlaces)).ne exact_units
  have log2 : a.digits.log2 + a.places = k.log2 + partPlaces := by
    rw [← log2_mul_two_pow some, ← log2_mul_two_pow pos, ← exact_units, units]
  have digits_lt : a.digits.log2 < 53 := (Nat.log2_lt some.ne').2 a.digits_lt
  have k_lt : k.log2 < 24 := (Nat.log2_lt pos.ne').2 few
  unfold partPlaces at log2
  omega

theorem unpack_percent_part (pos : 0 < k) (few : k < 2 ^ 24) :
    (widen (part k) * 100).toModel.unpack =
      (ofUnits (100 * k * 2 ^ partPlaces)).withSign .positive := by
  obtain ⟨least, finite⟩ := places_ofUnits_part pos few
  rw [unpack_mul_hundred (unpack_widen_part pos few) least finite, units_ofUnits (by omega),
    Nat.mul_assoc]

theorem percent_part (few : k < 2 ^ 24) :
    0 ≤ widen (part k) * 100 ∧ widen (part k) * 100 < 100 := by
  rcases Nat.eq_zero_or_pos k with rfl | pos
  · rw [part_zero]
    decide +kernel
  · obtain ⟨b, measures, rank⟩ := measures_withSign (ofUnits (100 * k * 2 ^ partPlaces))
    rw [← unpack_percent_part pos few] at measures
    let hundred : Magnitude := ⟨100 * 2 ^ 46, 1028, by decide, .inr (by decide)⟩
    have measures_hundred : Measures (100 : Float).toModel.unpack hundred :=
      unpack_hundred ▸ Measures.finite (a := hundred) (by decide) (by decide)
    have hundred_units : hundred.units = 100 * 2 ^ 24 * 2 ^ partPlaces := by
      have places : 46 + 1028 = 24 + partPlaces := rfl
      rw [units, Nat.mul_assoc, ← Nat.pow_add, places, Nat.pow_add, Nat.mul_assoc]
    refine ⟨measures.nonneg, ?_⟩
    by_contra not_below
    have le : (100 : Float) ≤ widen (part k) * 100 :=
      le_of_not_lt measures_hundred.isNaN measures.isNaN not_below
    rw [le_iff_rank_le measures_hundred measures, rank] at le
    have more := units_le_iff.2 (le.trans (Nat.min_le_left _ _))
    have fewer : 100 * k < 100 * 2 ^ 24 := Nat.mul_lt_mul_of_pos_left few (by decide)
    rw [units_ofUnits (fewer.trans (by decide)), hundred_units] at more
    have less : 100 * k * 2 ^ partPlaces < 100 * 2 ^ 24 * 2 ^ partPlaces :=
      Nat.mul_lt_mul_of_pos_right fewer (Nat.two_pow_pos partPlaces)
    exact Nat.not_le.2 less more

end BlockStage.Scalar
