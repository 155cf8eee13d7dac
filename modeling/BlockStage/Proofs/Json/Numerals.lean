import BlockStage.Json.Grammar

/-! Every number that is written as numbers are written is read as it stands, and whole numbers
keep their value. -/

namespace BlockStage

namespace Decimal

theorem ofDigits_digitChars (n : Nat) : ofDigits (digitChars n) = n :=
  Nat.ofDigitChars_ten_toDigits

theorem digitChars_ne_nil (n : Nat) : digitChars n ≠ [] := Nat.toDigits_ne_nil

theorem isDigit_of_mem_digitChars {n : Nat} {c : Char} (h : c ∈ digitChars n) : c.isDigit :=
  Nat.isDigit_of_mem_toDigits (by decide) (by decide) h

theorem head_digitChars {n : Nat} (pos : 0 < n) : (digitChars n).head? ≠ some '0' := by
  induction n using Nat.strongRecOn with
  | ind n ih =>
    rw [digitChars, Nat.toDigits_eq_if (by decide)]
    split
    · rename_i small
      simpa [Nat.digitChar_eq_zero] using Nat.ne_of_gt pos
    · rename_i large
      have rest := ih (n / 10) (by omega) (by omega)
      obtain ⟨c, cs, h⟩ := List.exists_cons_of_ne_nil (digitChars_ne_nil (n / 10))
      rw [digitChars] at h rest
      rw [h] at rest ⊢
      exact rest

end Decimal

namespace Json.Numeral

open Decimal (digitChars)

structure IsDigits (digits : List Char) : Prop where
  ne_nil : digits ≠ []
  all : ∀ c ∈ digits, c.isDigit

namespace IsDigits

variable {digits more : List Char}

theorem append (h : IsDigits digits) (all : ∀ c ∈ more, c.isDigit) : IsDigits (digits ++ more) :=
  ⟨by simp [h.ne_nil], fun c hc => (List.mem_append.1 hc).elim (h.all c) (all c)⟩

theorem prepend (h : IsDigits digits) (all : ∀ c ∈ more, c.isDigit) : IsDigits (more ++ digits) :=
  ⟨by simp [h.ne_nil], fun c hc => (List.mem_append.1 hc).elim (all c) (h.all c)⟩

theorem take (h : IsDigits digits) (n : Nat) : IsDigits (digits.take (n + 1)) :=
  ⟨by simp [h.ne_nil], fun c hc => h.all c (List.mem_of_mem_take hc)⟩

theorem drop (h : IsDigits digits) {n : Nat} (more : n < digits.length) :
    IsDigits (digits.drop n) :=
  ⟨by simpa using more, fun c hc => h.all c (List.mem_of_mem_drop hc)⟩

end IsDigits

/-- The number is written as numbers are: with a whole part, which starts with a zero only if it is
zero, and with digits behind a point or an exponent. -/
structure Proper (n : Numeral) : Prop where
  whole : IsDigits n.whole
  zero : n.whole.head? = some '0' → n.whole = ['0']
  fraction : ∀ digits, n.fraction = some digits → IsDigits digits
  exponent : ∀ sign digits, n.exponent = some (sign, digits) →
    IsDigits digits ∧ ∀ c, sign = some c → c = '+' ∨ c = '-'

/-- No number goes on with what follows. -/
def Ends (rest : List Char) : Prop :=
  ∀ c ∈ rest.head?, c.isDigit = false ∧ c ≠ '.' ∧ c ≠ 'e' ∧ c ≠ 'E'

theorem takeDigits?_append {digits rest : List Char} (h : IsDigits digits)
    (ends : ∀ c ∈ rest.head?, c.isDigit = false) :
    takeDigits? (digits ++ rest) = some (digits, rest) := by
  have taken : rest.takeWhile Char.isDigit = [] ∧ rest.dropWhile Char.isDigit = rest := by
    cases rest with
    | nil => exact ⟨rfl, rfl⟩
    | cons c cs => simp [ends c rfl]
  rw [takeDigits?, List.takeWhile_append_of_pos h.all, List.dropWhile_append_of_pos h.all,
    taken.1, taken.2, List.append_nil, if_neg h.ne_nil]

theorem takeWhole?_append {digits rest : List Char} (h : IsDigits digits)
    (zero : digits.head? = some '0' → digits = ['0'])
    (ends : ∀ c ∈ rest.head?, c.isDigit = false) :
    takeWhole? (digits ++ rest) = some (digits, rest) := by
  obtain ⟨c, cs, rfl⟩ := List.exists_cons_of_ne_nil h.ne_nil
  by_cases first : c = '0'
  · obtain rfl : cs = [] := by simpa [first] using zero
    subst first
    have alone : (rest.head?.any Char.isDigit) = false := by
      cases rest with
      | nil => rfl
      | cons c cs => exact ends c rfl
    simp [takeWhole?, alone]
  · rw [List.cons_append, takeWhole?.eq_2 _ (by simp [first]), ← List.cons_append]
    exact takeDigits?_append h ends

def fractionChars : Option (List Char) → List Char
  | some digits => '.' :: digits
  | none => []

def exponentChars : Option (Option Char × List Char) → List Char
  | some (sign, digits) => 'e' :: sign.toList ++ digits
  | none => []

theorem takeFraction?_append {part : Option (List Char)} {rest : List Char}
    (h : ∀ digits, part = some digits → IsDigits digits)
    (ends : ∀ c ∈ rest.head?, c.isDigit = false ∧ c ≠ '.') :
    takeFraction? (fractionChars part ++ rest) = some (part, rest) := by
  cases part with
  | some digits =>
    simp [fractionChars, takeFraction?, takeDigits?_append (h digits rfl) fun c hc => (ends c hc).1]
  | none =>
    cases rest with
    | nil => rfl
    | cons c cs =>
      exact takeFraction?.eq_2 _ fun cs' same => (ends c rfl).2 (List.cons.inj same).1

theorem takeExponent?_append {exponent : Option (Option Char × List Char)} {rest : List Char}
    (h : ∀ sign digits, exponent = some (sign, digits) →
      IsDigits digits ∧ ∀ c, sign = some c → c = '+' ∨ c = '-')
    (ends : Ends rest) :
    takeExponent? (exponentChars exponent ++ rest) = some (exponent, rest) := by
  cases exponent with
  | some part =>
    obtain ⟨sign, digits⟩ := part
    obtain ⟨isDigits, signs⟩ := h sign digits rfl
    have signed : takeSign (sign.toList ++ (digits ++ rest)) = (sign, digits ++ rest) := by
      cases sign with
      | some c => rcases signs c rfl with rfl | rfl <;> rfl
      | none =>
        -- No digit is a sign.
        obtain ⟨c, cs, rfl⟩ := List.exists_cons_of_ne_nil isDigits.ne_nil
        have digit := isDigits.all c List.mem_cons_self
        refine takeSign.eq_3 _ ?_ ?_
        all_goals
          rintro cs' same
          obtain ⟨rfl, -⟩ := List.cons.inj same
          exact absurd digit (by decide)
    simp [exponentChars, takeExponent?, signed,
      takeDigits?_append isDigits fun c hc => (ends c hc).1]
  | none =>
    cases rest with
    | nil => rfl
    | cons c cs => 
      obtain ⟨-, -, e, E⟩ := ends c rfl
      simp [exponentChars, takeExponent?, e, E]

theorem chars_eq (n : Numeral) (rest : List Char) :
    n.chars ++ rest = (if n.negative then ['-'] else []) ++
      (n.whole ++ (fractionChars n.fraction ++ (exponentChars n.exponent ++ rest))) := by
  simp only [← List.append_assoc]
  rfl

theorem head_chars {n : Numeral} (h : n.Proper) (rest : List Char) :
    ∃ c cs, n.chars ++ rest = c :: cs ∧ (c = '-' ∨ c.isDigit) := by
  obtain ⟨c, cs, whole⟩ := List.exists_cons_of_ne_nil h.whole.ne_nil
  rw [chars_eq, whole]
  cases n.negative with
  | true => exact ⟨_, _, rfl, .inl rfl⟩
  | false => exact ⟨_, _, rfl, .inr (h.whole.all c (whole ▸ List.mem_cons_self))⟩

theorem read?_chars {n : Numeral} (h : n.Proper) {rest : List Char} (ends : Ends rest) :
    read? (n.chars ++ rest) = some (n, rest) := by
  have ends_part : ∀ c ∈ (exponentChars n.exponent ++ rest).head?,
      c.isDigit = false ∧ c ≠ '.' := by
    cases n.exponent with
    | some power =>
      rintro c ⟨⟩
      decide
    | none => exact fun c hc => ⟨(ends c hc).1, (ends c hc).2.1⟩
  have ends_whole : ∀ c ∈ (fractionChars n.fraction ++ (exponentChars n.exponent ++ rest)).head?,
      c.isDigit = false := by
    cases n.fraction with
    | some digits =>
      rintro c ⟨⟩
      rfl
    | none => exact fun c hc => (ends_part c hc).1
  have whole := takeWhole?_append h.whole h.zero ends_whole
  have fraction := takeFraction?_append h.fraction ends_part
  have exponent := takeExponent?_append h.exponent ends
  have unsigned (c : Char) (cs : List Char) (first : n.whole = c :: cs) : c ≠ '-' := by
    rintro rfl
    exact absurd (h.whole.all '-' (first ▸ List.mem_cons_self)) (by decide)
  rw [chars_eq]
  obtain ⟨negative, digits, part, power⟩ := n
  cases negative with
  | true => simp [read?, whole, fraction, exponent]
  | false =>
    obtain ⟨c, cs, rfl⟩ := List.exists_cons_of_ne_nil h.whole.ne_nil
    have first := unsigned c cs rfl
    simp only [List.cons_append] at whole
    simp [read?, first, whole, fraction, exponent]

/-! ### Numbers that are written -/

theorem isDigits_digitChars (n : Nat) : IsDigits (digitChars n) :=
  ⟨Decimal.digitChars_ne_nil n, fun _ h => Decimal.isDigit_of_mem_digitChars h⟩

theorem digitChars_of_zero {n : Nat} (h : (digitChars n).head? = some '0') :
    digitChars n = ['0'] := by
  rcases Nat.eq_zero_or_pos n with rfl | pos
  · rfl
  · exact absurd h (Decimal.head_digitChars pos)

theorem proper_whole (negative : Bool) (n : Nat) :
    Proper ⟨negative, digitChars n, none, none⟩ where
  whole := isDigits_digitChars n
  zero := digitChars_of_zero
  fraction := nofun
  exponent := nofun

theorem isDigit_of_mem_zeros {n : Nat} {c : Char} (h : c ∈ zeros n) : c.isDigit := by
  obtain ⟨-, rfl⟩ := List.mem_replicate.1 h
  rfl

theorem proper_layOut (layout : Layout) (negative : Bool) (d : Decimal) :
    (layOut layout negative d).Proper := by
  have zero : IsDigits ['0'] := ⟨by simp, by simp⟩
  have digits := isDigits_digitChars d.digits
  unfold layOut
  dsimp only
  split
  · exact ⟨zero, fun _ => rfl, by rintro _ ⟨⟩; exact zero, nofun⟩
  · rename_i positive
    -- No part that starts with the leading digit starts with a zero.
    have lead : (digitChars d.digits).head? ≠ some '0' :=
      Decimal.head_digitChars (Nat.pos_of_ne_zero positive)
    split
    · split
      · refine ⟨digits.append fun _ => isDigit_of_mem_zeros, fun h => absurd ?_ lead,
          by rintro _ ⟨⟩; exact zero, nofun⟩
        rwa [List.head?_append, Option.or_of_isSome (by simpa using digits.ne_nil)] at h
      · split
        · refine ⟨digits.take _, fun h => absurd ?_ lead, ?_, nofun⟩
          · rwa [List.head?_take, if_neg (Nat.succ_ne_zero _)] at h
          · rintro _ ⟨⟩
            exact digits.drop (by omega)
        · exact ⟨zero, fun _ => rfl,
            by rintro _ ⟨⟩; exact digits.prepend fun _ => isDigit_of_mem_zeros, nofun⟩
    · refine ⟨digits.take 0, fun h => absurd ?_ lead, fun part h => ?_, ?_⟩
      · rwa [List.head?_take, if_neg (Nat.succ_ne_zero _)] at h
      · split at h
        · contradiction
        · rename_i more
          obtain rfl := Option.some.inj h
          exact ⟨more, fun c hc => digits.all c (List.mem_of_mem_drop hc)⟩
      · rintro sign _ ⟨⟩
        refine ⟨isDigits_digitChars _, ?_⟩
        rintro c ⟨⟩
        split <;> simp

theorem proper_ofDouble (x : Float) : (ofDouble x).Proper := proper_layOut _ _ _

theorem proper_ofSingle (x : Float32) : (ofSingle x).Proper := proper_layOut _ _ _

end Json.Numeral
end BlockStage
