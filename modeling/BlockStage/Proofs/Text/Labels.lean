import BlockStage.Text.KeyLabel
import Mathlib.Data.List.Basic

/-! The label of a key is its own label, whatever text the key is given by: small letters have no
smaller ones, and they are no white space that could be taken off. -/

namespace BlockStage

namespace Text

/-! ### Lower case -/

/-- A character as the table lists letters: between the ends of a run, a number of steps from its
first. -/
def InRun (run : Nat × Nat × Nat × Int) (n : Nat) : Prop :=
  run.1 ≤ n ∧ n ≤ run.2.1 ∧ (n - run.1) % run.2.2.1 = 0

theorem lowerChar_cases (c : Char) :
    c.toNat = 0x130 ∧ lowerChar c = ['i', '\u0307'] ∨
      (∃ run ∈ caseRuns, InRun run c.toNat ∧
        lowerChar c = [Char.ofNat (c.toNat + run.2.2.2).toNat]) ∨
      lowerChar c = [c] := by
  unfold lowerChar
  split
  · exact .inl ⟨‹_›, rfl⟩
  · split
    · rename_i first last step shift found
      have inside := List.find?_some found
      simp only [Bool.and_eq_true, decide_eq_true_eq, and_assoc] at inside
      exact .inr (.inl ⟨_, List.mem_of_find?_eq_some found, inside, rfl⟩)
    · exact .inr (.inr rfl)

theorem lowerChar_eq_self {c : Char} (dotted : c.toNat ≠ 0x130)
    (h : ∀ run ∈ caseRuns, ¬ InRun run c.toNat) : lowerChar c = [c] := by
  obtain ⟨is, -⟩ | ⟨run, listed, inside, -⟩ | same := lowerChar_cases c
  · exact absurd is dotted
  · exact absurd inside (h run listed)
  · exact same

def isSparse (run : Nat × Nat × Nat × Int) : Bool :=
  run.2.2.1.beq 2 || run.1.beq run.2.1

def image (run : Nat × Nat × Nat × Int) : Nat × Nat :=
  ((run.1 + run.2.2.2).toNat, (run.2.1 + run.2.2.2).toNat)

/-- What lies between the ends of an image misses the letters of a run: it is beyond the ends of the
run, or in between its letters. -/
def misses (image : Nat × Nat) (sparse : Bool) (run : Nat × Nat × Nat × Int) : Bool :=
  (image.2 + 1).ble run.1 || (run.2.1 + 1).ble image.1
    || (sparse && run.2.2.1.beq 2 && ((image.1 + run.1) % 2).beq 1)

theorem image_misses_caseRuns :
    (caseRuns.all fun run => caseRuns.all (misses (image run) (isSparse run))) = true := by
  decide +kernel

def isClear (image : Nat × Nat) : Bool :=
  (0x61).ble image.1 && image.2.ble 0x7a || (0xa1).ble image.1 && image.2.ble 0x12f
    || (0x131).ble image.1 && image.2.ble 0x167f || (0x1681).ble image.1 && image.2.ble 0x1fff
    || (0x2060).ble image.1 && image.2.ble 0x2fff || (0x3001).ble image.1

theorem isClear_image : (caseRuns.all fun run => isClear (image run)) = true := by
  decide +kernel

/-- The character is in lower case already, wherever it stands. -/
def Settled (c : Char) : Prop := lowerChar c = [c] ∧ c ≠ 'Σ'

theorem between_image {run : Nat × Nat × Nat × Int} {n : Nat} (inside : InRun run n)
    (positive : 0 < (image run).1) :
    (image run).1 ≤ (n + run.2.2.2).toNat ∧ (n + run.2.2.2).toNat ≤ (image run).2 ∧
      (isSparse run → ((n + run.2.2.2).toNat - (image run).1) % 2 = 0) := by
  obtain ⟨first, last, step, shift⟩ := run
  obtain ⟨low, high, steps⟩ := inside
  simp only [image] at low high steps positive ⊢
  refine ⟨by omega, by omega, fun sparse => ?_⟩
  simp only [isSparse, Bool.or_eq_true, Nat.beq_eq] at sparse
  obtain rfl | rfl := sparse <;> omega

theorem not_inRun_of_misses {run other : Nat × Nat × Nat × Int} {n : Nat} (inside : InRun run n)
    (positive : 0 < (image run).1) (h : misses (image run) (isSparse run) other = true) :
    ¬ InRun other (n + run.2.2.2).toNat := by
  obtain ⟨low, high, steps⟩ := between_image inside positive
  rintro ⟨after, before, every⟩
  simp only [misses, Bool.or_eq_true, Bool.and_eq_true, Nat.ble_eq, Nat.beq_eq] at h
  obtain (beyond | beyond) | ⟨⟨sparse, two⟩, odd⟩ := h
  · omega
  · omega
  · have even := steps sparse
    rw [two] at every
    omega

theorem settled_image {run : Nat × Nat × Nat × Int} (listed : run ∈ caseRuns) {n : Nat}
    (inside : InRun run n) :
    Settled (Char.ofNat (n + run.2.2.2).toNat) ∧
      isBlank (Char.ofNat (n + run.2.2.2).toNat) = false := by
  have clear := List.all_eq_true.1 isClear_image run listed
  simp only [isClear, Bool.or_eq_true, Bool.and_eq_true, Nat.ble_eq] at clear
  obtain ⟨low, high, -⟩ := between_image inside (by omega)
  have apart : ∀ other ∈ caseRuns, ¬ InRun other (n + run.2.2.2).toNat := fun other ho =>
    not_inRun_of_misses inside (by omega)
      (List.all_eq_true.1 (List.all_eq_true.1 image_misses_caseRuns run listed) other ho)
  generalize (n + run.2.2.2).toNat = m at low high apart
  by_cases valid : m.isValidChar
  · have number : (Char.ofNat m).toNat = m := by
      rw [Char.ofNat, dif_pos valid]
      rfl
    have same : lowerChar (Char.ofNat m) = [Char.ofNat m] :=
      lowerChar_eq_self (by omega) (by rwa [number])
    refine ⟨⟨same, fun sigma => ?_⟩, ?_⟩
    · rw [sigma] at same
      exact absurd same (by decide)
    · simp [isBlank, number]
      omega
  · have nul : Char.ofNat m = Char.ofNat 0 := by
      rw [Char.ofNat, dif_neg valid]
      rfl
    rw [nul]
    exact ⟨⟨by decide, by decide⟩, by decide⟩

theorem settled_of_mem_lowerChar {c d : Char} (h : d ∈ lowerChar c) (sigma : c ≠ 'Σ') :
    Settled d := by
  obtain ⟨-, dotted⟩ | ⟨run, listed, inside, led⟩ | same := lowerChar_cases c
  · rw [dotted] at h
    simp only [List.mem_cons, List.not_mem_nil, or_false] at h
    obtain rfl | rfl := h
    · exact ⟨by decide, by decide⟩
    · exact ⟨by decide, by decide⟩
  · rw [led] at h
    obtain rfl := List.mem_singleton.1 h
    exact (settled_image listed inside).1
  · rw [same] at h
    obtain rfl := List.mem_singleton.1 h
    exact ⟨same, sigma⟩

theorem not_isBlank_of_mem_lowerChar {c d : Char} (h : d ∈ lowerChar c)
    (plain : isBlank c = false) : isBlank d = false := by
  obtain ⟨-, dotted⟩ | ⟨run, listed, inside, led⟩ | same := lowerChar_cases c
  · rw [dotted] at h
    simp only [List.mem_cons, List.not_mem_nil, or_false] at h
    obtain rfl | rfl := h <;> decide
  · rw [led] at h
    obtain rfl := List.mem_singleton.1 h
    exact (settled_image listed inside).2
  · rw [same] at h
    obtain rfl := List.mem_singleton.1 h
    exact plain

theorem lowerChar_ne_nil (c : Char) : lowerChar c ≠ [] := by
  obtain ⟨-, led⟩ | ⟨run, -, -, led⟩ | led := lowerChar_cases c <;> rw [led] <;> simp

section Between

variable (before : List Char) (c : Char) (after : List Char)

theorem lowerBetween_cases :
    lowerBetween before c after = ['ς'] ∧ c = 'Σ' ∨ lowerBetween before c after = lowerChar c := by
  unfold lowerBetween
  split
  · rename_i final
    exact .inl ⟨rfl, by simpa using (Bool.and_eq_true_iff.1 final).1⟩
  · exact .inr rfl

theorem settled_of_mem_lowerBetween {d : Char} (h : d ∈ lowerBetween before c after) :
    Settled d := by
  have small : Settled 'ς' ∧ Settled 'σ' := ⟨⟨by decide, by decide⟩, by decide, by decide⟩
  obtain ⟨final, -⟩ | plain := lowerBetween_cases before c after
  · rw [final] at h
    obtain rfl := List.mem_singleton.1 h
    exact small.1
  · rw [plain] at h
    by_cases sigma : c = 'Σ'
    · have led : lowerChar 'Σ' = ['σ'] := by decide
      rw [sigma, led] at h
      obtain rfl := List.mem_singleton.1 h
      exact small.2
    · exact settled_of_mem_lowerChar h sigma

theorem lowerBetween_of_settled {c : Char} (h : Settled c) : lowerBetween before c after = [c] := by
  obtain ⟨-, sigma⟩ | same := lowerBetween_cases before c after
  · exact absurd sigma h.2
  · rw [same, h.1]

theorem lowerBetween_ne_nil : lowerBetween before c after ≠ [] := by
  obtain ⟨final, -⟩ | plain := lowerBetween_cases before c after
  · simp [final]
  · rw [plain]
    exact lowerChar_ne_nil c

theorem not_isBlank_of_mem_lowerBetween {c d : Char} (h : d ∈ lowerBetween before c after)
    (plain : isBlank c = false) : isBlank d = false := by
  obtain ⟨final, -⟩ | same := lowerBetween_cases before c after
  · rw [final] at h
    obtain rfl := List.mem_singleton.1 h
    decide
  · exact not_isBlank_of_mem_lowerChar (same ▸ h) plain

end Between

theorem settled_of_mem_lowerBehind {before cs : List Char} :
    ∀ d ∈ lowerBehind before cs, Settled d := by
  induction cs generalizing before with
  | nil => exact nofun
  | cons c rest ih =>
    intro d hd
    rcases List.mem_append.1 hd with now | later
    · exact settled_of_mem_lowerBetween _ _ _ now
    · exact ih d later

theorem lowerBehind_of_settled {cs : List Char} (h : ∀ c ∈ cs, Settled c) (before : List Char) :
    lowerBehind before cs = cs := by
  induction cs generalizing before with
  | nil => rfl
  | cons c rest ih =>
    obtain ⟨first, later⟩ := List.forall_mem_cons.1 h
    rw [lowerBehind, lowerBetween_of_settled _ _ first, ih later, List.singleton_append]

theorem trimmed_lowerBehind {cs : List Char} (h : Trimmed cs) (before : List Char) :
    Trimmed (lowerBehind before cs) := by
  obtain ⟨front, back⟩ := h
  refine ⟨fun d hd => ?_, fun d hd => ?_⟩
  · cases cs with
    | nil => simp [lowerBehind] at hd
    | cons c rest =>
      rw [lowerBehind, List.head?_append_of_ne_nil _ (lowerBetween_ne_nil _ _ _)] at hd
      exact not_isBlank_of_mem_lowerBetween _ _ (List.mem_of_mem_head? hd) (front c rfl)
  · clear front
    induction cs generalizing before with
    | nil => simp [lowerBehind] at hd
    | cons c rest ih =>
      cases rest with
      | nil =>
        rw [lowerBehind, lowerBehind, List.append_nil] at hd
        exact not_isBlank_of_mem_lowerBetween _ _ (List.mem_of_mem_getLast? hd) (back c rfl)
      | cons next rest =>
        have more : lowerBehind (c :: before) (next :: rest) ≠ [] := by
          rw [lowerBehind]
          exact List.append_ne_nil_of_left_ne_nil (lowerBetween_ne_nil _ _ _) _
        rw [lowerBehind, List.getLast?_append_of_ne_nil _ more] at hd
        exact ih (c :: before) (fun c hc => back c (by simpa using hc)) hd

end Text

theorem toList_keyLabel {raw : String} (h : raw ≠ " ") :
    (keyLabel raw).toList = Text.lowerBehind [] (Text.trimChars raw.toList) := by
  simp [keyLabel, h, Text.lower, Text.trim]

theorem keyLabel_keyLabel (raw : String) : keyLabel (keyLabel raw) = keyLabel raw := by
  by_cases bar : raw = " "
  · subst bar
    decide +kernel
  · have trimmed : Text.Trimmed (keyLabel raw).toList := by
      rw [toList_keyLabel bar]
      exact Text.trimmed_lowerBehind (Text.trimmed_trimChars _) []
    have settled : ∀ c ∈ (keyLabel raw).toList, Text.Settled c := by
      rw [toList_keyLabel bar]
      exact Text.settled_of_mem_lowerBehind
    have other : keyLabel raw ≠ " " := by
      intro blank
      rw [blank] at trimmed
      exact absurd (trimmed.1 ' ' (by decide)) (by decide)
    refine String.toList_inj.1 ?_
    rw [toList_keyLabel other, Text.trimChars_of_trimmed trimmed,
      Text.lowerBehind_of_settled settled]

end BlockStage
