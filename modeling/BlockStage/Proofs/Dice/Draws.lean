import BlockStage.Dice
import BlockStage.Proofs.Scalar.Parts

/-! The states of the dice. A step loses nothing of the state, so that zero, which steps to itself,
is reached from no other state; what is drawn stays within its bounds in all of them. -/

namespace BlockStage.Dice

open Scalar

/-! ### Steps -/

section Bits

variable {width : Nat} {x y : BitVec width}

/-- By induction on the place from below: the places under `shift` are left as they are. -/
theorem xor_shiftLeft_injective (shift : Nat) (pos : 0 < shift)
    (same : x ^^^ (x <<< shift) = y ^^^ (y <<< shift)) : x = y := by
  refine BitVec.eq_of_getLsbD_eq fun i _ => ?_
  induction i using Nat.strongRecOn with
  | ind i ih =>
    have bits := congrArg (BitVec.getLsbD · i) same
    simp only [BitVec.getLsbD_xor, BitVec.getLsbD_shiftLeft] at bits
    by_cases low : i < shift
    · simpa [low] using bits
    · rw [ih (i - shift) (by omega) (by omega)] at bits
      exact Bool.xor_left_inj.1 bits

/-- By induction on the place from above: there is nothing over the highest one. -/
theorem xor_shiftRight_injective (shift : Nat) (pos : 0 < shift)
    (same : x ^^^ (x >>> shift) = y ^^^ (y >>> shift)) : x = y := by
  have above (left i : Nat) (h : width ≤ i + left) : x.getLsbD i = y.getLsbD i := by
    induction left generalizing i with
    | zero => rw [x.getLsbD_of_ge i h, y.getLsbD_of_ge i h]
    | succ left ih =>
      have bits := congrArg (BitVec.getLsbD · i) same
      simp only [BitVec.getLsbD_xor, BitVec.getLsbD_ushiftRight] at bits
      rw [ih (shift + i) (by omega)] at bits
      exact Bool.xor_left_inj.1 bits
  exact BitVec.eq_of_getLsbD_eq fun i _ => above width i (Nat.le_add_left _ _)

end Bits

theorem step_injective : Function.Injective step := fun x y same => by
  have third := congrArg UInt64.toBitVec same
  have second := xor_shiftLeft_injective 17 (by decide) third
  have first := xor_shiftRight_injective 7 (by decide) second
  exact UInt64.eq_of_toBitVec_eq (xor_shiftLeft_injective 13 (by decide) first)

theorem step_zero : step 0 = 0 := rfl

theorem iterate_step_ne_zero {x : UInt64} (some : x ≠ 0) (n : Nat) : step^[n] x ≠ 0 := by
  rw [← Function.iterate_fixed step_zero n]
  exact (step_injective.iterate n).ne some

theorem state_ofSeed_ne_zero (seed : UInt64) : (ofSeed seed).state ≠ 0 := by
  unfold ofSeed
  split
  · decide
  · assumption

/-! ### Draws -/

inductive Draw
  | below (bound : UInt32)
  | unit
  | between (low high : Float32)
  | chance (percent : Float)
  | spread (lift : Float32)

def Draw.steps : Draw → Nat
  | .below bound => if bound = 0 then 0 else 1
  | .unit | .between _ _ | .chance _ => 1
  | .spread _ => 3

def drawn (d : Dice) : Draw → Dice
  | .below bound => (d.below bound).2
  | .unit => d.unit.2
  | .between low high => (d.between low high).2
  | .chance percent => (d.chance percent).2
  | .spread lift => (d.spread lift).2

def drawAll : Dice → List Draw → Dice := List.foldl drawn

theorem state_drawn (d : Dice) (draw : Draw) :
    (d.drawn draw).state = step^[draw.steps] d.state := by
  cases draw with
  | below bound =>
    simp only [drawn, below, Draw.steps]
    split <;> rfl
  | unit | between | chance | spread => rfl

theorem state_drawAll (d : Dice) (draws : List Draw) :
    (d.drawAll draws).state = step^[(draws.map Draw.steps).sum] d.state := by
  induction draws generalizing d with
  | nil => rfl
  | cons draw draws ih =>
    rw [drawAll, List.foldl_cons, ← drawAll, ih, state_drawn, List.map_cons, List.sum_cons,
      Nat.add_comm, Function.iterate_add_apply]

/-! ### What is drawn -/

theorem below_lt (d : Dice) {bound : UInt32} (some : 0 < bound) :
    (d.below bound).1 < bound.toNat := by
  have pos : 0 < bound.toNat := UInt32.lt_iff_toNat_lt.1 some
  have bound_ne : bound ≠ 0 := fun none => pos.ne' (congrArg UInt32.toNat none)
  rw [below, if_neg bound_ne]
  exact Nat.mod_lt _ pos

theorem unit_eq_part (d : Dice) : ∃ k < 2 ^ 24, d.unit.1 = part k := by
  refine ⟨(d.next.1 >>> 40).toNat, ?_, rfl⟩
  rw [UInt64.toNat_shiftRight, Nat.shiftRight_eq_div_pow]
  have bound := d.next.1.toNat_lt
  change d.next.1.toNat / 2 ^ 40 < 2 ^ 24
  omega

theorem chance_eq (d : Dice) (percent : Float) :
    (d.chance percent).1 = decide (widen d.unit.1 * 100 < percent) := rfl

theorem chance_of_nonpos (d : Dice) {percent : Float} (none : percent ≤ 0) :
    (d.chance percent).1 = false := by
  obtain ⟨k, few, drawn⟩ := d.unit_eq_part
  rw [chance_eq, drawn]
  exact decide_eq_false fun less => not_le_of_lt less (le_of_nonpos none (percent_part few).1)

theorem chance_of_hundred_le (d : Dice) {percent : Float} (all : 100 ≤ percent) :
    (d.chance percent).1 = true := by
  obtain ⟨k, few, drawn⟩ := d.unit_eq_part
  obtain ⟨nonneg, less⟩ := percent_part few
  rw [chance_eq, drawn]
  exact decide_eq_true (lt_of_nonneg_of_lt_of_le nonneg less all)

/-- From every seed and after any draws the state is not zero and has a successor of its own; parts
drawn are finite multiples of `2 ^ -24` in `[0, 1)`, numbers below a bound are below it, and the
chances of nothing and of all are what they say. -/
theorem draws_never_degenerate (seed : UInt64) (draws : List Draw) :
    let d := (ofSeed seed).drawAll draws
    d.state ≠ 0 ∧
    (∀ other : Dice, other.state ≠ d.state → other.next.2.state ≠ d.next.2.state) ∧
    (∃ k : Nat, k < 2 ^ 24 ∧ d.unit.1.isFinite = true ∧ value d.unit.1 = k / 2 ^ 24) ∧
    (∀ bound : UInt32, 0 < bound → (d.below bound).1 < bound.toNat) ∧
    (∀ percent : Float, percent ≤ 0 → (d.chance percent).1 = false) ∧
    ∀ percent : Float, 100 ≤ percent → (d.chance percent).1 = true := by
  intro d
  refine ⟨?_, fun other => step_injective.ne, ?_, fun _ => d.below_lt, fun _ => d.chance_of_nonpos,
    fun _ => d.chance_of_hundred_le⟩
  · rw [state_drawAll]
    exact iterate_step_ne_zero (state_ofSeed_ne_zero seed) _
  · obtain ⟨k, few, drawn⟩ := d.unit_eq_part
    rw [drawn]
    exact ⟨k, few, isFinite_part few, value_part few⟩

end BlockStage.Dice
