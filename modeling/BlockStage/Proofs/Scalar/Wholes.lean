import BlockStage.Proofs.Scalar.Narrowing

/-! Whole numbers as singles, and back. A single has room for 24 binary digits; zeros behind them
take no room. -/

namespace BlockStage.Scalar

open Float.Model (Format totalExponent UnpackedFloat)
open Float.Model.UnpackedFloat

section Packing

variable {digits : Nat} (full : 2 ^ 23 ≤ digits) (few : digits < 2 ^ 24)

include full few

theorem pack_single {exponent : Int} (least : -149 ≤ exponent) (most : exponent ≤ 104)
    (sign : Sign) (pos : 0 < digits) :
    UnpackedFloat.pack .binary32 (.finite sign digits exponent pos) =
      packComponents .binary32 sign (BitVec.ofNat 8 (exponent + (127 : Nat) + (23 : Nat)).toNat)
        (BitVec.ofNat 23 digits) := by
  have normal : digits.log2 + 1 = 24 :=
    congrArg (· + 1) ((Nat.log2_eq_iff pos.ne').2 ⟨full, few⟩)
  have fits : ¬ 2 ^ 8 ≤ (exponent + (127 : Nat) + (23 : Nat)).toNat + 1 := by omega
  change (if 2 ^ 8 ≤ (exponent + (127 : Nat) + (23 : Nat)).toNat + 1 then _
    else if digits.log2 + 1 = 24 then _ else _) = _
  rw [if_neg fits, if_pos normal]
  rfl

theorem unpack_packComponents {field : Nat} (above : 0 < field) (below : field < 255)
    (sign : Sign) (pos : 0 < digits) :
    UnpackedFloat.unpack .binary32 (packComponents .binary32 sign (BitVec.ofNat 8 field)
      (BitVec.ofNat 23 digits)) = .finite sign digits (field - (127 + 23)) pos := by
  have stored : (BitVec.ofNat 8 field).toNat = field := Nat.mod_eq_of_lt (by omega)
  have implicit : (1#1 ++ BitVec.ofNat 23 digits).toNat = digits := by
    rw [toNat_implicit, BitVec.toNat_ofNat]
    omega
  have not_all : BitVec.ofNat 8 field ≠ -1#8 := fun all =>
    below.ne (stored.symm.trans (congrArg BitVec.toNat all))
  have not_none : BitVec.ofNat 8 field ≠ 0#8 := fun none =>
    above.ne' (stored.symm.trans (congrArg BitVec.toNat none))
  rw [UnpackedFloat.unpack]
  simp only [unpackExponent_packComponents, unpackMantissa_packComponents,
    unpackSign_packComponents, Sign.ofBitVec_toBitVec, implicit, stored]
  rw [if_neg not_all, if_neg not_none]
  rfl

theorem unpack_pack_single {exponent : Int} (least : -149 ≤ exponent) (most : exponent ≤ 104)
    (sign : Sign) (pos : 0 < digits) :
    (Float32.Model.pack (.finite sign digits exponent pos)).unpack =
      .finite sign digits exponent pos := by
  rw [Float32.Model.pack, Float32.Model.unpack, UInt32.toBitVec_ofBitVec,
    pack_single full few least most, unpack_packComponents full few (by omega) (by omega) sign pos]
  congr 1
  omega

end Packing

/-! ### Whole numbers as singles -/

def surplus (n : Nat) : Nat := n.log2 - 23

theorem ofNatSingle_eq {n : Nat} (pos : 0 < n) :
    ofNatSingle n = .ofModel (.pack (.round .binary32 .positive n 0)) := by
  have more : compare (n : Int) 0 = .gt := Int.compare_eq_gt.2 (Int.natCast_pos.2 pos)
  have whole : UnpackedFloat.normalize .binary32 (n : Int) 0 .positive =
      .round .binary32 .positive n 0 := by
    rw [UnpackedFloat.normalize, more]
    rfl
  exact congrArg (fun u => Float32.ofModel (.pack u)) whole

theorem unpack_ofNatSingle_few {n : Nat} (pos : 0 < n) (few : n < 2 ^ 24) :
    (ofNatSingle n).toModel.unpack =
      .finite .positive (n * 2 ^ (23 - n.log2)) (n.log2 - 23 : Int)
        (Nat.mul_pos pos (Nat.two_pow_pos _)) := by
  have log2_lt : n.log2 < 24 := (Nat.log2_lt pos.ne').2 few
  obtain ⟨digits, at_digits⟩ : ∃ d, d = n * 2 ^ (23 - n.log2) := ⟨_, rfl⟩
  have some : 0 < digits := at_digits ▸ Nat.mul_pos pos (Nat.two_pow_pos _)
  have log2 : digits.log2 = 23 := by
    rw [at_digits, Magnitude.log2_mul_two_pow pos]
    omega
  obtain ⟨full, below⟩ := (Nat.log2_eq_iff some.ne').1 log2
  have shift : (0 - singleExponent n 0).toNat = 23 - n.log2 := by
    unfold singleExponent
    omega
  have exponent : (0 : Int) - (23 - n.log2 : Nat) = n.log2 - 23 := by omega
  have stays : singleExponent digits (n.log2 - 23) = n.log2 - 23 := by
    unfold singleExponent
    omega
  have rounds : UnpackedFloat.round .binary32 .positive n 0 =
      .finite .positive digits (n.log2 - 23) some := by
    rw [UnpackedFloat.round, targetExponent_single, decreaseExponent, shift, Nat.shiftLeft_eq,
      ← at_digits]
    simp only [exponent]
    have dropped : dropPlaces digits 0 = digits := by simpa using dropPlaces_exact digits 0
    rw [roundWithAccuracy_single, stays, Int.sub_self, Int.toNat_zero, dropped, if_pos below,
      Int.max_self, scaled, dif_neg some.ne']
  rw [ofNatSingle_eq pos, rounds]
  simp only [at_digits] at full below ⊢
  exact unpack_pack_single full below (by omega) (by omega) _ _

/-- What a single holds of a longer number: 24 digits, and the places behind them. -/
def held (n : Nat) : Nat × Nat :=
  if dropPlaces n (surplus n) < 2 ^ 24 then (dropPlaces n (surplus n), surplus n)
  else (2 ^ 23, surplus n + 1)

theorem held_bounds {n : Nat} (many : 2 ^ 24 ≤ n) : 2 ^ 23 ≤ (held n).1 ∧ (held n).1 < 2 ^ 24 := by
  have log2_le : 24 ≤ n.log2 := (Nat.le_log2 (by omega)).2 many
  have split : 2 ^ 23 * 2 ^ surplus n ≤ n := by
    rw [← Nat.pow_add, surplus, Nat.add_sub_cancel' (by omega)]
    exact Nat.log2_self_le (by omega)
  have least : 2 ^ 23 ≤ dropPlaces n (surplus n) :=
    (dropPlaces_exact ..).ge.trans (dropPlaces_mono split _)
  unfold held
  split
  · exact ⟨least, ‹_›⟩
  · exact ⟨Nat.le_refl _, Nat.pow_lt_pow_right (by decide) (by decide)⟩

theorem unpack_ofNatSingle_many {n : Nat} (many : 2 ^ 24 ≤ n) (short : n.log2 < 127) :
    (ofNatSingle n).toModel.unpack = .finite .positive (held n).1 (held n).2
      (Nat.lt_of_lt_of_le (by decide) (held_bounds many).1) := by
  have pos : 0 < n := by omega
  have log2_le : 24 ≤ n.log2 := (Nat.le_log2 pos.ne').2 many
  obtain ⟨full, few⟩ := held_bounds many
  have target : singleExponent n 0 = surplus n := by
    unfold singleExponent surplus
    omega
  have none : ((0 : Int) - surplus n).toNat = 0 := by omega
  have most : (held n).2 ≤ 104 := by
    unfold held surplus
    split <;> simp only <;> omega
  have rounds : UnpackedFloat.round .binary32 .positive n 0 =
      scaled .positive (held n).1 (held n).2 := by
    rw [UnpackedFloat.round, targetExponent_single, target, decreaseExponent, none]
    change roundWithAccuracy .binary32 .positive n 0 .exact = _
    rw [roundWithAccuracy_single, target, Int.sub_zero, Int.toNat_natCast,
      Int.max_eq_right (Int.natCast_nonneg _), held]
    split <;> rfl
  rw [ofNatSingle_eq pos, rounds, scaled, dif_neg (by omega)]
  exact unpack_pack_single full few (by omega) (by omega) _ _

/-! ### Singles as whole numbers -/

theorem mantissa_shiftRight (m : ExtendedMantissa) (places : Nat) :
    (m >>> places).mantissa = m.mantissa / 2 ^ places := by
  induction places with
  | zero => exact (Nat.div_one _).symm
  | succ places ih =>
    change (m >>> places).mantissa / 2 = _
    rw [ih, Nat.div_div_eq_div_mul, Nat.pow_succ]

theorem toNat_ofNatClamp (n : Nat) : (UInt32.ofNatClamp n).toNat = min n (2 ^ 32 - 1) := by
  unfold UInt32.ofNatClamp
  split
  · rename_i fits
    change n < 2 ^ 32 at fits
    change n = _
    omega
  · rename_i large
    change ¬ n < 2 ^ 32 at large
    change 2 ^ 32 - 1 = _
    omega

variable {x : Float32} {digits : Nat} {pos : 0 < digits}

theorem toNat_toUInt32_of_roundToInt {exponent : Int} {n : Nat}
    (h : x.toModel.unpack = .finite .positive digits exponent pos)
    (whole : roundToInt .positive digits exponent = n) :
    x.toUInt32.toNat = min n (2 ^ 32 - 1) := by
  change (UInt32.ofNatClamp (x.toModel.unpack.toInt 0 (UInt32.size - 1)).toNat).toNat = _
  rw [h, UnpackedFloat.toInt, whole, Int.toNat_natCast, toNat_ofNatClamp]

theorem toNat_toUInt32_of_whole {places : Nat}
    (h : x.toModel.unpack = .finite .positive digits places pos) :
    x.toUInt32.toNat = min (digits * 2 ^ places) (2 ^ 32 - 1) := by
  have none : (0 - ((places : Int) - places)).toNat = 0 := by omega
  refine toNat_toUInt32_of_roundToInt h ?_
  rw [roundToInt, decreaseExponent, Int.sub_zero, Int.toNat_natCast, Nat.shiftLeft_eq]
  simp only [shiftToExponent, none]
  rfl

theorem toNat_toUInt32_of_zeros {n places : Nat}
    (h : x.toModel.unpack = .finite .positive digits (-places : Int) pos)
    (zeros : digits = n * 2 ^ places) : x.toUInt32.toNat = min n (2 ^ 32 - 1) := by
  have none : (-(places : Int) - 0).toNat = 0 := by omega
  have all : (0 - (-(places : Int) - (0 : Nat))).toNat = places := by omega
  refine toNat_toUInt32_of_roundToInt h ?_
  rw [roundToInt, decreaseExponent, none, Nat.shiftLeft_zero]
  simp only [shiftToExponent, all]
  change ((ExtendedMantissa.ofMantissaAndAccuracy digits .exact >>> places).mantissa : Int) = n
  rw [mantissa_shiftRight]
  change ((digits / 2 ^ places : Nat) : Int) = n
  rw [zeros, Nat.mul_div_cancel _ (Nat.two_pow_pos _)]

/-- A single has room for the number: but for zeros behind it, it has at most 24 digits. -/
def HasRoom (n : Nat) : Prop := ∃ digits < 2 ^ 24, ∃ places, n = digits * 2 ^ places

theorem hasRoom_of_lt {n : Nat} (few : n < 2 ^ 24) : HasRoom n := ⟨n, few, 0, (Nat.mul_one n).symm⟩

theorem HasRoom.held_eq {n : Nat} (h : HasRoom n) (many : 2 ^ 24 ≤ n) :
    (held n).1 * 2 ^ (held n).2 = n := by
  obtain ⟨digits, few, places, made⟩ := h
  have pos : 0 < digits := Nat.pos_of_ne_zero fun none => by
    rw [none, Nat.zero_mul] at made
    omega
  have log2_lt : digits.log2 < 24 := (Nat.log2_lt pos.ne').2 few
  have log2 : n.log2 = digits.log2 + places := made ▸ Magnitude.log2_mul_two_pow pos places
  have log2_le : 24 ≤ n.log2 := (Nat.le_log2 (by omega)).2 many
  have le : surplus n ≤ places := by
    unfold surplus
    omega
  -- What is dropped are zeros.
  have split : n = digits * 2 ^ (places - surplus n) * 2 ^ surplus n := by
    rw [Nat.mul_assoc, ← Nat.pow_add, Nat.sub_add_cancel le, made]
  have kept : dropPlaces n (surplus n) = digits * 2 ^ (places - surplus n) :=
    calc dropPlaces n (surplus n)
        = dropPlaces (digits * 2 ^ (places - surplus n) * 2 ^ surplus n) (surplus n) :=
          congrArg (dropPlaces · (surplus n)) split
      _ = digits * 2 ^ (places - surplus n) := dropPlaces_exact ..
  have below : dropPlaces n (surplus n) < 2 ^ 24 := by
    rw [kept, ← Nat.log2_lt (Nat.mul_pos pos (Nat.two_pow_pos _)).ne',
      Magnitude.log2_mul_two_pow pos]
    unfold surplus
    omega
  rw [held, if_pos below, kept, ← split]

def IsWhole (x : Float32) (n : Nat) : Prop :=
  match x.toModel.unpack with
  | .zero _ => n = 0
  | .finite .positive digits exponent _ => digits * 2 ^ exponent.toNat = n * 2 ^ (-exponent).toNat
  | _ => False

theorem IsWhole.toNat_toUInt32 {n : Nat} (h : IsWhole x n) :
    x.toUInt32.toNat = min n (2 ^ 32 - 1) := by
  unfold IsWhole at h
  split at h
  · rename_i sign unpacked
    subst h
    change (UInt32.ofNatClamp (x.toModel.unpack.toInt 0 (UInt32.size - 1)).toNat).toNat = _
    rw [unpacked]
    rfl
  · rename_i digits exponent pos unpacked
    rcases Int.eq_nat_or_neg exponent with ⟨places, rfl | rfl⟩
    · rw [Int.toNat_natCast, Int.toNat_neg_natCast, Nat.pow_zero, Nat.mul_one] at h
      rw [toNat_toUInt32_of_whole unpacked, h]
    · rw [Int.toNat_neg_natCast, Int.neg_neg, Int.toNat_natCast, Nat.pow_zero, Nat.mul_one] at h
      exact toNat_toUInt32_of_zeros unpacked h
  · exact h.elim

theorem isWhole_ofNatSingle_few {n : Nat} (few : n < 2 ^ 24) : IsWhole (ofNatSingle n) n := by
  rcases Nat.eq_zero_or_pos n with rfl | pos
  · have none : (ofNatSingle 0).toModel.unpack = .zero .positive := rfl
    rw [IsWhole, none]
  · have log2_lt : n.log2 < 24 := (Nat.log2_lt pos.ne').2 few
    have whole : ((n.log2 : Int) - 23).toNat = 0 := by omega
    have zeros : (-((n.log2 : Int) - 23)).toNat = 23 - n.log2 := by omega
    rw [IsWhole, unpack_ofNatSingle_few pos few]
    simp only [whole, zeros, Nat.pow_zero, Nat.mul_one]

theorem isWhole_ofNatSingle_many {n : Nat} (many : 2 ^ 24 ≤ n) (word : n < 2 ^ 32) :
    IsWhole (ofNatSingle n) ((held n).1 * 2 ^ (held n).2) := by
  have log2_lt : n.log2 < 32 := (Nat.log2_lt (by omega)).2 word
  rw [IsWhole, unpack_ofNatSingle_many many (by omega)]
  simp only [Int.toNat_natCast, Int.toNat_neg_natCast, Nat.pow_zero, Nat.mul_one]

theorem HasRoom.isWhole {n : Nat} (room : HasRoom n) (word : n < 2 ^ 32) :
    IsWhole (ofNatSingle n) n := by
  by_cases few : n < 2 ^ 24
  · exact isWhole_ofNatSingle_few few
  · have whole := isWhole_ofNatSingle_many (Nat.not_lt.1 few) word
    rwa [room.held_eq (Nat.not_lt.1 few)] at whole

theorem held_lt {n : Nat} (many : 2 ^ 24 ≤ n) (below : n < 4294967168) :
    (held n).1 * 2 ^ (held n).2 < 2 ^ 32 := by
  have log2_lt : n.log2 < 32 := (Nat.log2_lt (by omega)).2 (by omega)
  rcases Nat.lt_or_ge (surplus n) 8 with short | long
  · have places : (held n).2 ≤ 8 := by
      unfold held
      split <;> simp only <;> omega
    calc (held n).1 * 2 ^ (held n).2
        < 2 ^ 24 * 2 ^ (held n).2 :=
          Nat.mul_lt_mul_of_pos_right (held_bounds many).2 (Nat.two_pow_pos _)
      _ ≤ 2 ^ 24 * 2 ^ 8 := Nat.mul_le_mul_left _ (Nat.pow_le_pow_right Nat.two_pos places)
  · have eight : surplus n = 8 := by
      unfold surplus at long ⊢
      omega
    have most : dropPlaces n 8 ≤ 16777215 := dropPlaces_mono (by omega : n ≤ 4294967167) 8
    rw [held, eight, if_pos (by omega)]
    change dropPlaces n 8 * 256 < 4294967296
    omega

/-- Such a number is held as a word, which is the number itself just if there is room for it. -/
theorem exists_isWhole_ofNatSingle {n : Nat} (below : n < 4294967168) :
    ∃ m < 2 ^ 32, IsWhole (ofNatSingle n) m ∧ (m = n ↔ HasRoom n) := by
  by_cases few : n < 2 ^ 24
  · exact ⟨n, by omega, isWhole_ofNatSingle_few few, iff_of_true rfl (hasRoom_of_lt few)⟩
  · have many : 2 ^ 24 ≤ n := Nat.not_lt.1 few
    exact ⟨_, held_lt many below, isWhole_ofNatSingle_many many (by omega),
      fun same => ⟨_, (held_bounds many).2, _, same.symm⟩, fun room => room.held_eq many⟩

end BlockStage.Scalar
