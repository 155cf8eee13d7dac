import BlockStage.Proofs.Scalar.Packing
import BlockStage.Scalar.Order

/-! Sums and differences of doubles, and their order. A sum is the double nearest to the sum of the
values; so more added gives no less, and as long as digits suffice nothing is lost. -/

namespace BlockStage.Scalar

open Float.Model (Format totalExponent UnpackedFloat)
open Float.Model.UnpackedFloat
open Magnitude

/-! ### Order -/

theorem compare_swap (u v : UnpackedFloat) : v.compare u = (u.compare v).map Ordering.swap := by
  rcases u with s | _ | s | ⟨s, m, e, pos⟩ <;> rcases v with s' | _ | s' | ⟨s', m', e', pos'⟩ <;>
    first
      | rfl
      | (cases s <;> rfl)
      | (cases s' <;> rfl)
      | (cases s <;> cases s' <;> rfl)
      | (cases s <;> cases s' <;> simp [UnpackedFloat.compare, Ordering.swap_then,
          Int.compare_swap, Nat.compare_swap])

theorem compare_isSome {u v : UnpackedFloat} (hu : u.isNaN = false) (hv : v.isNaN = false) :
    ∃ o, u.compare v = some o := by
  rcases u with s | _ | s | ⟨s, m, e, pos⟩ <;> rcases v with s' | _ | s' | ⟨s', m', e', pos'⟩ <;>
    first
      | contradiction
      | (cases s <;> cases s' <;> exact ⟨_, rfl⟩)

theorem le_of_not_lt {x y : Float} (hx : x.isNaN = false) (hy : y.isNaN = false) (h : ¬ y < x) :
    x ≤ y := by
  obtain ⟨o, ho⟩ := compare_isSome (u := x.toModel.unpack) (v := y.toModel.unpack) hx hy
  have above : ¬ y.toModel.unpack.lt x.toModel.unpack = true := fun lt => h (decide_eq_true lt)
  rw [UnpackedFloat.lt, compare_swap, ho] at above
  refine decide_eq_true (?_ : x.toModel.unpack.le y.toModel.unpack = true)
  rw [UnpackedFloat.le, ho]
  cases o with
  | lt => rfl
  | eq => rfl
  | gt => exact absurd rfl above

theorem compare_of_lt {x y : Float} (h : x < y) :
    x.toModel.unpack.compare y.toModel.unpack = some .lt := by
  have lt : x.toModel.unpack.lt y.toModel.unpack = true := of_decide_eq_true h
  cases ho : x.toModel.unpack.compare y.toModel.unpack with
  | none =>
    rw [UnpackedFloat.lt, ho] at lt
    contradiction
  | some o =>
    rw [UnpackedFloat.lt, ho] at lt
    cases o <;> first | rfl | contradiction

theorem le_of_lt {x y : Float} (h : x < y) : x ≤ y := by
  refine decide_eq_true (?_ : x.toModel.unpack.le y.toModel.unpack = true)
  rw [UnpackedFloat.le, compare_of_lt h]
  rfl

theorem not_le_of_lt {x y : Float} (h : x < y) : ¬ y ≤ x := fun le => by
  have le : y.toModel.unpack.le x.toModel.unpack = true := of_decide_eq_true le
  rw [UnpackedFloat.le, compare_swap, compare_of_lt h] at le
  contradiction

theorem isNaN_of_lt {x y : Float} (h : x < y) : x.isNaN = false ∧ y.isNaN = false := by
  have compared := compare_of_lt h
  change x.toModel.unpack.isNaN = false ∧ y.toModel.unpack.isNaN = false
  generalize x.toModel.unpack = u at compared ⊢
  generalize y.toModel.unpack = v at compared ⊢
  cases u <;> cases v <;> first | exact ⟨rfl, rfl⟩ | contradiction

/-! ### Doubles that are not negative -/

/-- What is unpacked is not negative, and this is its magnitude. -/
inductive Measures : UnpackedFloat → Magnitude → Prop
  | zero (sign : Sign) : Measures (.zero sign) bottom
  | finite {a : Magnitude} (pos : 0 < a.digits) (finite : a.places < 2046) :
      Measures (.finite .positive a.digits (a.places - 1074) pos) a
  | infinite : Measures (.infinity .positive) top

theorem measures_withSign (a : Magnitude) :
    ∃ b, Measures (a.withSign .positive) b ∧ b.rank = min a.rank top.rank := by
  have digits_lt := a.digits_lt
  have full := a.full
  rw [withSign]
  split
  · rename_i finite
    have below : a.rank ≤ top.rank := by
      simp only [rank, top, powerOfTwo]
      omega
    refine ⟨a, ?_, (Nat.min_eq_left below).symm⟩
    split
    · rename_i none
      have : a = bottom := by
        apply eq_of_rank_eq
        simp only [rank, bottom]
        omega
      exact this ▸ .zero _
    · exact .finite _ finite
  · refine ⟨_, .infinite, (Nat.min_eq_right ?_).symm⟩
    simp only [rank, top, powerOfTwo]
    omega

theorem Measures.rank_le {u : UnpackedFloat} {a : Magnitude} (h : Measures u a) :
    a.rank ≤ top.rank := by
  cases h with
  | zero => exact Nat.zero_le _
  | finite pos finite =>
    have := a.digits_lt
    simp only [rank, top, powerOfTwo]
    omega
  | infinite => exact Nat.le_refl _

theorem Measures.le_iff {u v : UnpackedFloat} {a b : Magnitude} (hu : Measures u a)
    (hv : Measures v b) : u.le v = true ↔ a.rank ≤ b.rank := by
  cases hu with
  | zero sign =>
    refine iff_of_true ?_ (Nat.zero_le _)
    cases hv <;> rfl
  | infinite =>
    cases hv with
    | zero sign => exact iff_of_false Bool.false_ne_true (by decide)
    | finite pos finite =>
      refine iff_of_false Bool.false_ne_true (Nat.not_le.2 ?_)
      have := b.digits_lt
      simp only [rank, top, powerOfTwo]
      omega
    | infinite => exact iff_of_true rfl (Nat.le_refl _)
  | finite pos finite =>
    have a_lt := a.digits_lt
    cases hv with
    | zero sign =>
      refine iff_of_false Bool.false_ne_true (Nat.not_le.2 ?_)
      exact Nat.lt_of_lt_of_le pos (Nat.le_add_left _ _)
    | finite pos' finite' =>
      have b_lt := b.digits_lt
      have a_full := a.full
      have b_full := b.full
      change ((compare ((a.places : Int) - 1074) (b.places - 1074)).then
        (compare a.digits b.digits)).isLE = true ↔ _
      rw [Ordering.isLE_then_iff_or, Int.compare_eq_lt, Int.compare_eq_eq, Nat.isLE_compare]
      simp only [rank]
      omega
    | infinite =>
      refine iff_of_true rfl ?_
      simp only [rank, top, powerOfTwo]
      omega

/-! ### Sums -/

theorem apply_mul (sign : Sign) (n k : Int) : sign.apply (n * k) = sign.apply n * k := by
  cases sign with
  | positive => rfl
  | negative => exact (Int.neg_mul n k).symm

theorem nearest_natCast {n : Nat} (pos : 0 < n) : nearest n = withSign .positive (ofUnits n) := by
  have gt : compare (n : Int) 0 = .gt := Int.compare_eq_gt.2 (Int.natCast_pos.2 pos)
  rw [nearest, gt]
  rfl

theorem exists_aligned (a b : Magnitude) : ∃ places m m' : Nat,
    min ((a.places : Int) - 1074) (b.places - 1074) = places - 1074 ∧
      (decreaseExponent a.digits (a.places - 1074) ((places : Int) - 1074)).1 = m ∧
      (decreaseExponent b.digits (b.places - 1074) ((places : Int) - 1074)).1 = m' ∧
      (a.units : Int) = m * 2 ^ places ∧ (b.units : Int) = m' * 2 ^ places := by
  have aligned (c : Magnitude) {places : Nat} (le : places ≤ c.places) :
      (c.units : Int) = (decreaseExponent c.digits (c.places - 1074) ((places : Int) - 1074)).1 *
        2 ^ places := by
    have more : ((c.places : Int) - 1074 - (places - 1074)).toNat = c.places - places := by omega
    rw [decreaseExponent, more, Nat.shiftLeft_eq]
    have units : c.units = c.digits * 2 ^ (c.places - places) * 2 ^ places := by
      rw [Nat.mul_assoc, ← Nat.pow_add, Nat.sub_add_cancel le, units]
    rw [units, Int.natCast_mul]
    rfl
  exact ⟨min a.places b.places, _, _, by omega, rfl, rfl, aligned a (Nat.min_le_left _ _),
    aligned b (Nat.min_le_right _ _)⟩

variable {a b : Magnitude} {sign sign' : Sign}

theorem unpack_pack_add (pos : 0 < a.digits) (pos' : 0 < b.digits) :
    (Float.Model.pack (UnpackedFloat.add .binary64
      (.finite sign a.digits (a.places - 1074) pos)
      (.finite sign' b.digits (b.places - 1074) pos'))).unpack =
      nearest (sign.apply a.units + sign'.apply b.units) := by
  obtain ⟨places, m, m', lower, at_m, at_m', units, units'⟩ := exists_aligned a b
  rw [UnpackedFloat.add]
  simp only [lower, at_m, at_m']
  rw [unpack_pack_normalize, Int.add_mul, ← apply_mul, ← apply_mul, units, units']

theorem unpack_pack_sub (pos : 0 < a.digits) (pos' : 0 < b.digits) :
    (Float.Model.pack (UnpackedFloat.sub .binary64
      (.finite sign a.digits (a.places - 1074) pos)
      (.finite sign' b.digits (b.places - 1074) pos'))).unpack =
      nearest (sign.apply a.units - sign'.apply b.units) := by
  obtain ⟨places, m, m', lower, at_m, at_m', units, units'⟩ := exists_aligned a b
  rw [UnpackedFloat.sub]
  simp only [lower, at_m, at_m']
  rw [unpack_pack_normalize, Int.sub_mul, ← apply_mul, ← apply_mul, units, units']

theorem Measures.unpack_pack {u : UnpackedFloat} {a : Magnitude} (h : Measures u a) :
    (Float.Model.pack u).unpack = u := by
  have signed : ∃ sign b, u = withSign sign b := by
    cases h with
    | zero sign => exact ⟨sign, bottom, rfl⟩
    | finite pos finite =>
      refine ⟨.positive, a, ?_⟩
      rw [withSign, if_pos finite, dif_neg (Nat.ne_of_gt pos)]
    | infinite => exact ⟨.positive, top, rfl⟩
  obtain ⟨sign, b, rfl⟩ := signed
  exact unpack_pack_withSign sign b

def Magnitude.add (a b : Magnitude) : Magnitude := ofUnits (a.units + b.units)

theorem Magnitude.add_comm (a b : Magnitude) : a.add b = b.add a :=
  congrArg ofUnits (Nat.add_comm _ _)

theorem Magnitude.rank_le_add (a b : Magnitude) : a.rank ≤ (a.add b).rank :=
  calc a.rank = (ofUnits a.units).rank := by rw [ofUnits_units]
    _ ≤ (a.add b).rank := rank_ofUnits_mono (Nat.le_add_right _ _)

theorem Magnitude.bottom_add (a : Magnitude) : bottom.add a = a :=
  calc bottom.add a = ofUnits (0 + a.units) := rfl
    _ = a := by rw [Nat.zero_add, ofUnits_units]

theorem Measures.add {u v : UnpackedFloat} {a b : Magnitude} (hu : Measures u a)
    (hv : Measures v b) :
    ∃ c, Measures (Float.Model.pack (UnpackedFloat.add .binary64 u v)).unpack c ∧
      c.rank = min (a.add b).rank top.rank := by
  have same {w : UnpackedFloat} {c : Magnitude} (hw : Measures w c)
      (sum : UnpackedFloat.add .binary64 u v = w) (rank : c.rank = min (a.add b).rank top.rank) :
      ∃ c, Measures (Float.Model.pack (UnpackedFloat.add .binary64 u v)).unpack c ∧
        c.rank = min (a.add b).rank top.rank :=
    ⟨c, sum ▸ hw.unpack_pack.symm ▸ hw, rank⟩
  cases hu with
  | zero sign =>
    have rank : b.rank = min (bottom.add b).rank top.rank := by
      rw [bottom_add, Nat.min_eq_left hv.rank_le]
    cases hv with
    | zero sign' =>
      refine same (w := if sign == sign' then .zero sign else .zero .positive) ?_ rfl rank
      split <;> exact .zero _
    | finite pos finite => exact same (.finite pos finite) rfl rank
    | infinite => exact same .infinite rfl rank
  | infinite =>
    refine same .infinite ?_ (Nat.min_eq_right (rank_le_add ..)).symm
    cases hv <;> rfl
  | finite pos finite =>
    cases hv with
    | zero sign =>
      refine same (.finite pos finite) rfl ?_
      rw [add_comm, bottom_add, Nat.min_eq_left (Measures.finite pos finite).rank_le]
    | infinite =>
      refine same .infinite rfl (Nat.min_eq_right ?_).symm
      rw [add_comm]
      exact rank_le_add ..
    | finite pos' finite' =>
      have total : Sign.positive.apply a.units + Sign.positive.apply b.units =
          ((a.units + b.units : Nat) : Int) := rfl
      have units_pos : 0 < a.units + b.units :=
        Nat.add_pos_left (Nat.mul_pos pos (Nat.two_pow_pos _)) _
      rw [unpack_pack_add, total, nearest_natCast units_pos]
      exact measures_withSign _

/-! ### Differences -/

theorem nearest_le_zero {n : Int} (h : n ≤ 0) : (nearest n).le (.zero .positive) = true := by
  rcases Int.lt_or_eq_of_le h with less | rfl
  · have lt : compare n 0 = .lt := Int.compare_eq_lt.2 less
    rw [nearest, lt]
    change (withSign .negative _).le _ = true
    rw [withSign]
    split
    · split <;> rfl
    · rfl
  · rfl

theorem unpack_pack_finite (sign : Sign) (pos : 0 < a.digits) (finite : a.places < 2046) :
    (Float.Model.pack (.finite sign a.digits (a.places - 1074) pos)).unpack =
      .finite sign a.digits (a.places - 1074) pos := by
  have signed : withSign sign a = .finite sign a.digits (a.places - 1074) pos := by
    rw [withSign, if_pos finite, dif_neg (Nat.ne_of_gt pos)]
  rw [← signed]
  exact unpack_pack_withSign sign a

theorem zero_sub_le_zero {v : UnpackedFloat} (hv : Measures v b) (finite : b.places < 2046) :
    (Float.Model.pack (UnpackedFloat.sub .binary64 (.zero sign) v)).unpack.le (.zero .positive) =
      true := by
  cases hv with
  | zero sign' => cases sign <;> cases sign' <;> rfl
  | infinite => exact absurd finite (by decide)
  | finite pos =>
    change (Float.Model.pack (.finite .negative _ _ pos)).unpack.le _ = true
    rw [unpack_pack_finite .negative pos finite]
    rfl

theorem Measures.sub {u v : UnpackedFloat} (hu : Measures u a) (finite : a.places < 2046)
    (hv : Measures v b) (finite' : b.places < 2046) :
    (Float.Model.pack (UnpackedFloat.sub .binary64 u v)).unpack.le (.zero .positive) = true ∨
      ∃ c, Measures (Float.Model.pack (UnpackedFloat.sub .binary64 u v)).unpack c ∧
        c.rank = min (ofUnits (a.units - b.units)).rank top.rank := by
  cases hu with
  | zero sign => exact .inl (zero_sub_le_zero hv finite')
  | infinite => exact absurd finite (by decide)
  | finite pos =>
    cases hv with
    | zero sign =>
      have all : ofUnits (a.units - bottom.units) = a := by
        rw [show bottom.units = 0 from Nat.zero_mul _, Nat.sub_zero, ofUnits_units]
      refine .inr ⟨a, ?_, ?_⟩
      · change Measures (Float.Model.pack (.finite .positive _ _ pos)).unpack a
        rw [unpack_pack_finite .positive pos finite]
        exact .finite pos finite
      · rw [all, Nat.min_eq_left (Measures.finite pos finite).rank_le]
    | infinite => exact absurd finite' (by decide)
    | finite pos' =>
      rw [unpack_pack_sub]
      change (nearest ((a.units : Int) - b.units)).le _ = true ∨ _
      by_cases le : a.units ≤ b.units
      · exact .inl (nearest_le_zero (by omega))
      · have total : Sign.positive.apply a.units - Sign.positive.apply b.units =
            ((a.units - b.units : Nat) : Int) := (Int.ofNat_sub (by omega)).symm
        rw [total, nearest_natCast (by omega)]
        exact .inr (measures_withSign _)

inductive NotPositive : UnpackedFloat → Prop
  | zero (sign : Sign) : NotPositive (.zero sign)
  | finite {a : Magnitude} (pos : 0 < a.digits) (finite : a.places < 2046) :
      NotPositive (.finite .negative a.digits (a.places - 1074) pos)
  | infinite : NotPositive (.infinity .negative)

theorem notPositive_of_le_zero {x : Float} (h : x ≤ 0) : NotPositive x.toModel.unpack := by
  have le : x.toModel.unpack.le (.zero .positive) = true := of_decide_eq_true h
  rcases unpack_cases x.toModel with nan | ⟨sign, a, signed⟩
  · rw [nan] at le
    contradiction
  · rw [signed] at le ⊢
    unfold withSign at le ⊢
    by_cases finite : a.places < 2046
    · rw [if_pos finite] at le ⊢
      by_cases none : a.digits = 0
      · rw [dif_pos none]
        exact .zero sign
      · rw [dif_neg none] at le ⊢
        cases sign with
        | positive => contradiction
        | negative => exact .finite _ finite
    · rw [if_neg finite] at le ⊢
      cases sign with
      | positive => contradiction
      | negative => exact .infinite

theorem NotPositive.sub {u v : UnpackedFloat} (hu : NotPositive u) (hv : Measures v b)
    (finite' : b.places < 2046) :
    (Float.Model.pack (UnpackedFloat.sub .binary64 u v)).unpack.le (.zero .positive) = true := by
  cases hu with
  | zero sign => exact zero_sub_le_zero hv finite'
  | finite pos finite =>
    cases hv with
    | zero sign =>
      change (Float.Model.pack (.finite .negative _ _ _)).unpack.le _ = true
      rw [unpack_pack_finite .negative pos finite]
      rfl
    | infinite => exact absurd finite' (by decide)
    | finite pos' =>
      rw [unpack_pack_sub]
      exact nearest_le_zero (Int.sub_nonpos_of_le (by simp only [Sign.apply]; omega))
  | infinite =>
    cases hv with
    | zero sign => cases sign <;> rfl
    | infinite => exact absurd finite' (by decide)
    | finite pos =>
      change (Float.Model.pack (.infinity .negative)).unpack.le _ = true
      rfl

theorem sub_le_zero {x y : Float} (hx : x ≤ 0) (hy : Measures y.toModel.unpack b)
    (finite' : b.places < 2046) : x - y ≤ 0 :=
  decide_eq_true ((notPositive_of_le_zero hx).sub hy finite')

/-! ### Doubles -/

theorem Measures.exists_of_le {u : UnpackedFloat} {x : Float} (hu : Measures u a)
    (le : u.le x.toModel.unpack = true) : ∃ b, Measures x.toModel.unpack b := by
  rcases unpack_cases x.toModel with nan | ⟨sign, a, signed⟩
  · rw [nan] at le
    cases hu <;> contradiction
  · rw [signed] at le ⊢
    cases sign with
    | positive =>
      obtain ⟨b, measures, -⟩ := measures_withSign a
      exact ⟨b, measures⟩
    | negative =>
      by_cases finite : a.places < 2046
      · rw [withSign, if_pos finite] at le ⊢
        by_cases none : a.digits = 0
        · rw [dif_pos none]
          exact ⟨_, .zero _⟩
        · rw [dif_neg none] at le
          cases hu <;> contradiction
      · rw [withSign, if_neg finite] at le
        cases hu <;> contradiction

theorem exists_measures {x : Float} (h : 0 ≤ x) : ∃ a, Measures x.toModel.unpack a :=
  (Measures.zero .positive).exists_of_le (of_decide_eq_true h)

theorem Measures.nonneg {x : Float} {a : Magnitude} (h : Measures x.toModel.unpack a) : 0 ≤ x :=
  decide_eq_true ((Measures.zero .positive).le_iff h |>.2 (Nat.zero_le _))

theorem Measures.isNaN {u : UnpackedFloat} {a : Magnitude} (h : Measures u a) :
    u.isNaN = false := by
  cases h <;> rfl

theorem isNaN_of_nonneg {x : Float} (h : 0 ≤ x) : x.isNaN = false := by
  obtain ⟨a, measures⟩ := exists_measures h
  exact measures.isNaN

variable {x y z : Float}

theorem le_iff_rank_le (hx : Measures x.toModel.unpack a) (hy : Measures y.toModel.unpack b) :
    x ≤ y ↔ a.rank ≤ b.rank := by
  rw [← hx.le_iff hy]
  exact decide_eq_true_iff

theorem measures_add (hx : Measures x.toModel.unpack a) (hy : Measures y.toModel.unpack b) :
    ∃ c, Measures (x + y).toModel.unpack c ∧ c.rank = min (a.add b).rank top.rank :=
  hx.add hy

theorem le_rfl_of_nonneg (hx : 0 ≤ x) : x ≤ x := by
  obtain ⟨a, ha⟩ := exists_measures hx
  exact (le_iff_rank_le ha ha).2 (Nat.le_refl _)

theorem lt_of_nonneg_of_lt_of_le (hx : 0 ≤ x) (less : x < y) (le : y ≤ z) : x < z := by
  obtain ⟨a, ha⟩ := exists_measures hx
  obtain ⟨b, hb⟩ := ha.exists_of_le (of_decide_eq_true (le_of_lt less))
  obtain ⟨c, hc⟩ := hb.exists_of_le (of_decide_eq_true le)
  by_contra not_less
  have back : z ≤ x := le_of_not_lt hc.isNaN ha.isNaN not_less
  rw [le_iff_rank_le hb hc] at le
  rw [le_iff_rank_le hc ha] at back
  exact not_le_of_lt less ((le_iff_rank_le hb ha).2 (le.trans back))

theorem add_nonneg (hx : 0 ≤ x) (hy : 0 ≤ y) : 0 ≤ x + y := by
  obtain ⟨a, ha⟩ := exists_measures hx
  obtain ⟨b, hb⟩ := exists_measures hy
  obtain ⟨c, hc, -⟩ := measures_add ha hb
  exact hc.nonneg

theorem le_add (hx : 0 ≤ x) (hy : 0 ≤ y) : x ≤ x + y := by
  obtain ⟨a, ha⟩ := exists_measures hx
  obtain ⟨b, hb⟩ := exists_measures hy
  obtain ⟨c, hc, rank⟩ := measures_add ha hb
  rw [le_iff_rank_le ha hc, rank]
  exact Nat.le_min.2 ⟨rank_le_add a b, ha.rank_le⟩

theorem add_le_add_left (hx : 0 ≤ x) (hy : 0 ≤ y) (hz : 0 ≤ z) (le : y ≤ z) :
    x + y ≤ x + z := by
  obtain ⟨a, ha⟩ := exists_measures hx
  obtain ⟨b, hb⟩ := exists_measures hy
  obtain ⟨b', hb'⟩ := exists_measures hz
  obtain ⟨c, hc, rank⟩ := measures_add ha hb
  obtain ⟨c', hc', rank'⟩ := measures_add ha hb'
  have units : b.units ≤ b'.units := units_le_iff.2 ((le_iff_rank_le hb hb').1 le)
  have more : (a.add b).rank ≤ (a.add b').rank :=
    rank_ofUnits_mono (Nat.add_le_add_left units a.units)
  rw [le_iff_rank_le hc hc', rank, rank']
  exact Nat.le_min.2 ⟨(Nat.min_le_left _ _).trans more, Nat.min_le_right _ _⟩

theorem le_of_nonpos (hx : x ≤ 0) (hy : 0 ≤ y) : x ≤ y := by
  obtain ⟨b, hb⟩ := exists_measures hy
  have below := notPositive_of_le_zero hx
  refine decide_eq_true (?_ : x.toModel.unpack.le y.toModel.unpack = true)
  generalize x.toModel.unpack = u at below ⊢
  generalize y.toModel.unpack = v at hb ⊢
  cases below with
  | zero sign => exact (Measures.zero sign).le_iff hb |>.2 (Nat.zero_le _)
  | finite => cases hb <;> rfl
  | infinite => cases hb <;> rfl

/-! ### What is not a number -/

theorem unpack_of_isNaN (hx : x.isNaN = true) : x.toModel.unpack = .notANumber :=
  UnpackedFloat.isNaN_iff.1 hx

theorem not_le_of_isNaN (hx : x.isNaN = true) (y : Float) : ¬ y ≤ x := fun le => by
  have le : y.toModel.unpack.le x.toModel.unpack = true := of_decide_eq_true le
  rw [unpack_of_isNaN hx] at le
  generalize y.toModel.unpack = u at le
  cases u <;> contradiction

theorem not_le_of_isNaN_left (hx : x.isNaN = true) (y : Float) : ¬ x ≤ y := fun le => by
  have le : x.toModel.unpack.le y.toModel.unpack = true := of_decide_eq_true le
  rw [unpack_of_isNaN hx] at le
  contradiction

theorem isNaN_add_left (hx : x.isNaN = true) (y : Float) : (x + y).isNaN = true := by
  change (Float.Model.pack (UnpackedFloat.add .binary64 x.toModel.unpack _)).unpack.isNaN = true
  rw [isNaN_unpack_pack, unpack_of_isNaN hx]
  rfl

theorem isNaN_add_right (x : Float) (hy : y.isNaN = true) : (x + y).isNaN = true := by
  change (Float.Model.pack (UnpackedFloat.add .binary64 _ y.toModel.unpack)).unpack.isNaN = true
  rw [isNaN_unpack_pack, unpack_of_isNaN hy]
  generalize x.toModel.unpack = u
  cases u <;> rfl

theorem isNaN_sub_left (hx : x.isNaN = true) (y : Float) : (x - y).isNaN = true := by
  change (Float.Model.pack (UnpackedFloat.sub .binary64 x.toModel.unpack _)).unpack.isNaN = true
  rw [isNaN_unpack_pack, unpack_of_isNaN hx]
  rfl

theorem isNaN_sub_right (x : Float) (hy : y.isNaN = true) : (x - y).isNaN = true := by
  change (Float.Model.pack (UnpackedFloat.sub .binary64 _ y.toModel.unpack)).unpack.isNaN = true
  rw [isNaN_unpack_pack, unpack_of_isNaN hy]
  generalize x.toModel.unpack = u
  cases u <;> rfl

theorem isNaN_widen (x : Float32) : (widen x).isNaN = x.isNaN := by
  change (widen x).toModel.unpack.isNaN = x.toModel.unpack.isNaN
  rw [widen]
  cases hu : x.toModel.unpack with
  | finite sign m e pos =>
    change (Float.Model.pack _).unpack.isNaN = _
    rw [isNaN_unpack_pack]
    unfold UnpackedFloat.round roundWithAccuracy
    dsimp only
    split <;> rfl
  | notANumber => exact isNaN_unpack_pack _
  | infinity sign => exact isNaN_unpack_pack _
  | zero sign => exact isNaN_unpack_pack _

end BlockStage.Scalar
