import BlockStage.Color
import Mathlib.Algebra.Order.Field.Basic
import Mathlib.Algebra.Order.Ring.Abs
import Mathlib.Algebra.Order.Ring.Rat
import Mathlib.Tactic.Linarith
import Mathlib.Tactic.Ring

/-! A colour is written as three bytes. The text is read as the colour of those bytes, and the byte
of a component is the nearest to it. -/

namespace BlockStage

def Scalar.value (x : Float32) : ℚ :=
  match x.toModel.unpack with
  | .finite sign significand exponent _ => sign.apply significand * 2 ^ exponent
  | _ => 0

namespace Color

open Text (hexDigit hexValue? hexValue_hexDigit isBlank)

def byte (x : Float32) : UInt8 :=
  (Scalar.roundSingle (Vec3.lesser (Vec3.greater x 0) 1 * (255 : Float32))).toUInt8

def ofByte (n : UInt8) : Float32 := Scalar.ofNatSingle n.toNat / 255

/-- The colour that is left of one that was written. -/
def coarse (rgb : Vec3) : Vec3 := rgb.map fun x => ofByte (byte x)

theorem toHex_eq (rgb : Vec3) :
    toHex rgb =
      String.ofList ('#' :: hexPair (byte rgb.x) ++ hexPair (byte rgb.y) ++ hexPair (byte rgb.z)) :=
  rfl

theorem hexDigit_plain (n : Fin 16) :
    isBlank (hexDigit n) = false ∧ hexDigit n ≠ '#' ∧ hexDigit n ≠ '+' ∧
      (hexDigit n).utf8Size = 1 := by
  revert n
  decide

theorem byteCount_cons (c : Char) (cs : List Char) :
    byteCount (c :: cs) = c.utf8Size + byteCount cs := by
  have split : String.ofList (c :: cs) = String.singleton c ++ String.ofList cs := by
    rw [String.singleton_eq_ofList, ← String.ofList_append, List.singleton_append]
  rw [byteCount, split, String.utf8ByteSize_append, String.utf8ByteSize_singleton, byteCount]

def spell (digits : List (Fin 16)) : List Char := digits.map fun d => hexDigit d.val

def ofDigits (digits : List (Fin 16)) : Nat := digits.foldl (fun value d => value * 16 + d.val) 0

theorem byteCount_spell (digits : List (Fin 16)) : byteCount (spell digits) = digits.length := by
  induction digits with
  | nil => rfl
  | cons d rest ih =>
    rw [spell, List.map_cons, byteCount_cons, (hexDigit_plain d).2.2.2, List.length_cons,
      Nat.add_comm]
    exact congrArg (· + 1) ih

theorem hexNumber?_spell (d : Fin 16) (rest : List (Fin 16)) :
    hexNumber? (spell (d :: rest)) = some (ofDigits (d :: rest)) := by
  have folded (digits : List (Fin 16)) (n : Nat) :
      (spell digits).foldl (fun value c => do return (← value) * 16 + (← hexValue? c)) (some n) =
        some (digits.foldl (fun value d => value * 16 + d.val) n) := by
    induction digits generalizing n with
    | nil => rfl
    | cons d rest ih =>
      rw [spell, List.map_cons, List.foldl_cons, List.foldl_cons, ← ih, hexValue_hexDigit]
      rfl
  have unsigned : hexNumber? (spell (d :: rest)) = hexDigits? (spell (d :: rest)) := by
    rw [spell, List.map_cons, hexNumber?]
    exact fun _ signed => (hexDigit_plain d).2.2.1 (List.cons.inj signed).1
  rw [unsigned]
  exact folded (d :: rest) 0

theorem ofHex?_spell {digits : List (Fin 16)} (six : digits.length = 6) :
    ofHex? (String.ofList ('#' :: spell digits)) = some (ofPacked (ofDigits digits)) := by
  obtain ⟨d, rest, rfl⟩ := List.exists_cons_of_length_eq_add_one six
  have sign : isBlank '#' = false := by decide
  have trimmed : Text.trimChars ('#' :: spell (d :: rest)) = '#' :: spell (d :: rest) :=
    Text.trimChars_eq_self (List.forall_mem_cons.2
      ⟨sign, List.forall_mem_map.2 fun d _ => (hexDigit_plain d).1⟩)
  have bare : ('#' :: spell (d :: rest)).dropWhile (· = '#') = spell (d :: rest) := by
    simp [spell, List.dropWhile, (hexDigit_plain d).2.1]
  simp [ofHex?, trimmed, bare, byteCount_spell, hexNumber?_spell, six]

def highDigit (n : UInt8) : Fin 16 := ⟨n.toNat / 16, by have := n.toNat_lt; omega⟩

def lowDigit (n : UInt8) : Fin 16 := ⟨n.toNat % 16, Nat.mod_lt _ (by decide)⟩

theorem ofPacked_bytes (r g b : UInt8) :
    ofPacked
        (ofDigits [highDigit r, lowDigit r, highDigit g, lowDigit g, highDigit b, lowDigit b]) =
      ⟨ofByte r, ofByte g, ofByte b⟩ := by
  have number : ofDigits [highDigit r, lowDigit r, highDigit g, lowDigit g, highDigit b, lowDigit b]
      = r.toNat * 2 ^ 16 + g.toNat * 2 ^ 8 + b.toNat := by
    simp only [ofDigits, highDigit, lowDigit, List.foldl_cons, List.foldl_nil]
    omega
  have := r.toNat_lt
  have := g.toNat_lt
  have := b.toNat_lt
  have red : (r.toNat * 2 ^ 16 + g.toNat * 2 ^ 8 + b.toNat) / 2 ^ 16 % 256 = r.toNat := by omega
  have green : (r.toNat * 2 ^ 16 + g.toNat * 2 ^ 8 + b.toNat) / 2 ^ 8 % 256 = g.toNat := by omega
  have blue : (r.toNat * 2 ^ 16 + g.toNat * 2 ^ 8 + b.toNat) / 2 ^ 0 % 256 = b.toNat := by omega
  simp only [ofPacked, channel, number, Nat.shiftRight_eq_div_pow, red, green, blue, ofByte]

theorem ofHex?_toHex (rgb : Vec3) : ofHex? (toHex rgb) = some (coarse rgb) := by
  have spelled (r g b : UInt8) : '#' :: hexPair r ++ hexPair g ++ hexPair b =
      '#' :: spell [highDigit r, lowDigit r, highDigit g, lowDigit g, highDigit b, lowDigit b] :=
    rfl
  rw [toHex_eq, spelled, ofHex?_spell (by simp only [List.length_cons, List.length_nil]),
    ofPacked_bytes, coarse, Vec3.map]

theorem byte_ofByte_and_close : ∀ n : Fin 256,
    byte (ofByte (.ofFin n)) = .ofFin n ∧
      |255 * Scalar.value (ofByte (.ofFin n)) - n.val| < 1 / 2 := by
  decide +kernel

theorem byte_ofByte (n : UInt8) : byte (ofByte n) = n := (byte_ofByte_and_close n.toFin).1

theorem toHex_coarse (rgb : Vec3) : toHex (coarse rgb) = toHex rgb := by
  simp only [toHex_eq, coarse, Vec3.map, byte_ofByte]

/-- The one of the values `0/255` to `255/255` that is the nearest to a component. -/
def IsNearest (x y : Float32) : Prop :=
  ∃ k ≤ 255, y = Scalar.ofNatSingle k / 255 ∧
    ∀ j ≤ 255, j ≠ k → |Scalar.value x - k / 255| < |Scalar.value x - j / 255|

theorem isNearest_of_close {x : Float32} {n : UInt8}
    (close : |255 * Scalar.value x - n.toNat| < 1 / 2) : IsNearest x (ofByte n) := by
  refine ⟨n.toNat, Nat.le_of_lt_succ n.toNat_lt, rfl, fun j _ other => ?_⟩
  have scaled (k : Nat) : |Scalar.value x - k / 255| = |255 * Scalar.value x - k| / 255 := by
    have factor : 255 * Scalar.value x - k = 255 * (Scalar.value x - k / 255) := by ring
    have positive : (0 : ℚ) < 255 := by norm_num
    rw [factor, abs_mul, abs_of_pos positive, mul_div_cancel_left₀ _ positive.ne']
  -- In 255ths the component is less than a half away from `n`, and `j` at least one.
  have one : (1 : ℚ) ≤ |(n.toNat : ℚ) - j| := by
    have apart : (1 : ℤ) ≤ |(n.toNat : ℤ) - j| := Int.one_le_abs (by omega)
    exact_mod_cast apart
  have between := abs_sub_le (n.toNat : ℚ) (255 * Scalar.value x) j
  rw [abs_sub_comm (n.toNat : ℚ) (255 * Scalar.value x)] at between
  rw [scaled, scaled, div_lt_div_iff_of_pos_right (by norm_num)]
  linarith

/-- The components that a colour has once it is loaded: those of bytes, and those of new objects. -/
def Loaded (x : Float32) : Prop := (∃ n, x = ofByte n) ∨ x ∈ [0.29, 0.56, 0.85]

theorem isNearest_of_loaded {x : Float32} (h : Loaded x) : IsNearest x (ofByte (byte x)) := by
  obtain ⟨n, rfl⟩ | fresh := h
  · rw [byte_ofByte]
    exact isNearest_of_close (byte_ofByte_and_close n.toFin).2
  · have close : ∀ x ∈ ([0.29, 0.56, 0.85] : List Float32),
        |255 * Scalar.value x - (byte x).toNat| < 1 / 2 := by
      decide +kernel
    exact isNearest_of_close (close x fresh)

end Color
end BlockStage
