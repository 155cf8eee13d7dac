import BlockStage.Proofs.Run.Lives
import BlockStage.Proofs.Session.Showing
import BlockStage.Proofs.Structured.Refinement

/-! Loops that count through a range of words. A range has one value more than it has steps, and its
ends may be the least and the greatest word; no counter is ever stepped out of them. How often such
a loop passes, and with which values, is settled when it is entered. -/

namespace BlockStage.Structured

/-! ### Ranges of words -/

@[simp] theorem length_span (first last : Int64) :
    (span first last).length = (last.toInt - first.toInt).natAbs + 1 := by
  simp [span]

theorem getElem?_span_zero (first last : Int64) : (span first last)[0]? = some first := by
  rw [span_eq]
  rfl

theorem exists_getElem?_span {first last : Int64} {k : Nat}
    (less : k < (span first last).length) : ∃ value, (span first last)[k]? = some value :=
  ⟨_, List.getElem?_eq_getElem less⟩

theorem counterAfter_span {first last value : Int64} {k : Nat}
    (h : (span first last)[k]? = some value) :
    Frame.counterAfter value last = (span first last)[k + 1]? := by
  induction k generalizing first with
  | zero =>
    rw [getElem?_span_zero, Option.some.injEq] at h
    subst h
    rw [span_eq, List.getElem?_cons_succ]
    cases Frame.counterAfter first last with
    | none => rfl
    | some next => exact (getElem?_span_zero next last).symm
  | succ k ih =>
    rw [span_eq, List.getElem?_cons_succ] at h ⊢
    cases next : Frame.counterAfter first last with
    | none => simp [next, remaining] at h
    | some second =>
      rw [next, remaining] at h
      exact ih h

/-- The values of a range lie one apart, in whole numbers that no word size cuts. -/
theorem toInt_span (first last : Int64) :
    (span first last).map Int64.toInt =
      (List.range ((last.toInt - first.toInt).natAbs + 1)).map fun k : Nat =>
        if first ≤ last then first.toInt + k else first.toInt - k := by
  have first_ge := first.le_toInt
  have first_lt := first.toInt_lt
  have last_ge := last.le_toInt
  have last_lt := last.toInt_lt
  rw [span, List.map_map]
  refine List.map_congr_left fun k hk => ?_
  rw [List.mem_range] at hk
  simp only [Function.comp_apply, Int64.le_iff_toInt_le]
  split <;> exact Int64.toInt_ofInt_of_le (by omega) (by omega)

/-! ### Counters in three words -/

def IsWord (n : Int) : Prop := Int64.minValue.toInt ≤ n ∧ n ≤ Int64.maxValue.toInt

theorem isWord_iff {n : Int} : IsWord n ↔ -9223372036854775808 ≤ n ∧ n ≤ 9223372036854775807 :=
  Iff.rfl

instance (n : Int) : Decidable (IsWord n) := inferInstanceAs (Decidable (_ ∧ _))

def sum? (a b : Int64) : Option Int64 := if IsWord (a.toInt + b.toInt) then some (a + b) else none

theorem sum?_eq_none {a b : Int64} : sum? a b = none ↔ ¬ IsWord (a.toInt + b.toInt) := by
  simp only [sum?, ite_eq_right_iff, reduceCtorEq, imp_false]

theorem toInt_of_sum? {a b c : Int64} (h : sum? a b = some c) : c.toInt = a.toInt + b.toInt := by
  unfold sum? at h
  split at h
  · rename_i fits
    obtain rfl := Option.some.inj h
    rw [isWord_iff] at fits
    rw [Int64.toInt_add, Int.bmod_eq_of_le] <;> omega
  · contradiction

theorem toInt_difference {a b : Int64} (fits : IsWord (a.toInt - b.toInt)) :
    (a - b).toInt = a.toInt - b.toInt := by
  rw [isWord_iff] at fits
  rw [Int64.toInt_sub, Int.bmod_eq_of_le] <;> omega

/-- A counter that knows its next value, the last one and the step between two of them. -/
structure Register where
  next : Int64
  last : Int64
  step : Int64

namespace Register

def spanning (first last : Int64) : Register := ⟨first, last, if first ≤ last then 1 else -1⟩

def isOver (r : Register) : Bool :=
  if 0 < r.step then decide (r.last < r.next) else decide (r.next < r.last)

/-- Where there is no next word, the last value is put behind the counter in its place. -/
def advance (r : Register) : Register :=
  match sum? r.next r.step with
  | some next => { r with next }
  | none => { r with last := r.next - r.step }

def value? (r : Register) : Option Int64 := if r.isOver then none else some r.next

def after (r : Register) (steps : Nat) : Register := Nat.repeat advance steps r

/-- One step makes no word too large: either the next value is the sum, or the last one is the
difference, and the other one of them stays. -/
def Exact (r : Register) : Prop :=
  (r.advance.next.toInt = r.next.toInt + r.step.toInt ∧ r.advance.last = r.last) ∨
    (r.advance.next = r.next ∧ r.advance.last.toInt = r.next.toInt - r.step.toInt)

def Directed (r : Register) : Prop :=
  (r.step = 1 ∧ r.next.toInt ≤ r.last.toInt) ∨ (r.step = -1 ∧ r.last.toInt ≤ r.next.toInt)

variable {r : Register}

theorem isOver_up (up : r.step = 1) : r.isOver = true ↔ r.last.toInt < r.next.toInt := by
  have positive : (0 : Int64) < 1 := by decide
  simp only [isOver, up, positive, if_true, decide_eq_true_eq, Int64.lt_iff_toInt_lt]

theorem isOver_down (down : r.step = -1) : r.isOver = true ↔ r.next.toInt < r.last.toInt := by
  have negative : ¬ (0 : Int64) < -1 := by decide
  simp only [isOver, down, negative, if_false, decide_eq_true_eq, Int64.lt_iff_toInt_lt]

theorem directed_spanning (first last : Int64) : (spanning first last).Directed := by
  unfold spanning
  split
  · rename_i le
    exact .inl ⟨rfl, Int64.le_iff_toInt_le.1 le⟩
  · rename_i not_le
    rw [Int64.le_iff_toInt_le] at not_le
    exact .inr ⟨rfl, by simp only; omega⟩

theorem advance_of_sum? {next : Int64} (h : sum? r.next r.step = some next) :
    r.advance = { r with next } := by
  simp only [advance, h]

theorem advance_of_sum?_eq_none (h : sum? r.next r.step = none) :
    r.advance = { r with last := r.next - r.step } := by
  simp only [advance, h]

theorem step_advance (r : Register) : r.advance.step = r.step := by
  unfold advance
  split <;> rfl

namespace Directed

theorem isOver (directed : r.Directed) : r.isOver = false := by
  rw [Bool.eq_false_iff]
  rcases directed with ⟨up, le⟩ | ⟨down, le⟩
  · rw [Ne, isOver_up up]
    omega
  · rw [Ne, isOver_down down]
    omega

theorem toInt_step (directed : r.Directed) : r.step.toInt = 1 ∨ r.step.toInt = -1 := by
  rcases directed with ⟨step, -⟩ | ⟨step, -⟩ <;> rw [step]
  · exact .inl rfl
  · exact .inr rfl

/-- Only the greatest and the least word have no next one, and from there a step back is one. -/
theorem exact (directed : r.Directed) : r.Exact := by
  have next_ge := r.next.le_toInt
  have next_lt := r.next.toInt_lt
  have unit := directed.toInt_step
  cases sum : sum? r.next r.step with
  | some next =>
    refine .inl ?_
    rw [advance_of_sum? sum]
    exact ⟨toInt_of_sum? sum, rfl⟩
  | none =>
    have outside := sum?_eq_none.1 sum
    rw [isWord_iff] at outside
    refine .inr ?_
    rw [advance_of_sum?_eq_none sum]
    refine ⟨rfl, toInt_difference (isWord_iff.2 ?_)⟩
    omega

theorem advance_cases (directed : r.Directed) :
    (∃ next, Frame.counterAfter r.next r.last = some next ∧ r.advance = { r with next } ∧
      r.advance.Directed) ∨
    (Frame.counterAfter r.next r.last = none ∧ r.advance.isOver = true) := by
  have next_ge := r.next.le_toInt
  have next_lt := r.next.toInt_lt
  have last_ge := r.last.le_toInt
  have last_lt := r.last.toInt_lt
  obtain ⟨less, one_more, eq⟩ | ⟨less, one_less, eq⟩ | ⟨same, eq⟩ :=
    Frame.counterAfter_cases r.next r.last
  · obtain ⟨up, -⟩ | ⟨-, le⟩ := directed
    · have sum : sum? r.next r.step = some (r.next + 1) := by
        rw [up, sum?, if_pos]
        rw [isWord_iff, Int64.toInt_one]
        omega
      refine .inl ⟨r.next + 1, eq, advance_of_sum? sum, ?_⟩
      rw [advance_of_sum? sum]
      exact .inl ⟨up, by simp only [one_more]; omega⟩
    · omega
  · obtain ⟨-, le⟩ | ⟨down, -⟩ := directed
    · omega
    · have sum : sum? r.next r.step = some (r.next - 1) := by
        have minus : (-1 : Int64).toInt = -1 := rfl
        rw [down, sum?, if_pos, Int64.sub_eq_add_neg]
        rw [isWord_iff, minus]
        omega
      refine .inl ⟨r.next - 1, eq, advance_of_sum? sum, ?_⟩
      rw [advance_of_sum? sum]
      exact .inr ⟨down, by simp only [one_less]; omega⟩
  · refine .inr ⟨eq, ?_⟩
    have together : r.next.toInt = r.last.toInt := congrArg Int64.toInt same
    have exact := directed.exact
    obtain ⟨up, -⟩ | ⟨down, -⟩ := directed
    · rw [isOver_up ((step_advance r).trans up)]
      simp only [Exact, up, Int64.toInt_one] at exact
      obtain ⟨moved, kept⟩ | ⟨kept, moved⟩ := exact <;> rw [moved, kept] <;> omega
    · have minus : (-1 : Int64).toInt = -1 := rfl
      rw [isOver_down ((step_advance r).trans down)]
      simp only [Exact, down, minus] at exact
      obtain ⟨moved, kept⟩ | ⟨kept, moved⟩ := exact <;> rw [moved, kept] <;> omega

end Directed

variable {first last : Int64} {k : Nat}

theorem after_succ (r : Register) (k : Nat) : r.after (k + 1) = (r.after k).advance := rfl

theorem after_spanning {value : Int64} (h : (span first last)[k]? = some value) :
    ((spanning first last).after k).Directed ∧ ((spanning first last).after k).next = value ∧
      ((spanning first last).after k).last = last := by
  induction k generalizing value with
  | zero =>
    rw [getElem?_span_zero, Option.some.injEq] at h
    exact ⟨directed_spanning first last, h, rfl⟩
  | succ k ih =>
    have less : k + 1 < (span first last).length := (List.getElem?_eq_some_iff.1 h).1
    obtain ⟨earlier, there⟩ := exists_getElem?_span (Nat.lt_of_succ_lt less)
    obtain ⟨directed, at_earlier, same⟩ := ih there
    obtain ⟨next, eq, advance, later⟩ | ⟨ended, -⟩ := directed.advance_cases
    · rw [at_earlier, same, counterAfter_span there, h, Option.some.injEq] at eq
      rw [after_succ, advance]
      exact ⟨advance ▸ later, eq.symm, same⟩
    · rw [at_earlier, same, counterAfter_span there, h] at ended
      contradiction

theorem value?_after (le : k ≤ (span first last).length) :
    ((spanning first last).after k).value? = (span first last)[k]? := by
  cases h : (span first last)[k]? with
  | some value =>
    obtain ⟨directed, at_value, -⟩ := after_spanning h
    rw [value?, directed.isOver, at_value]
    rfl
  | none =>
    have all : k = (span first last).length := Nat.le_antisymm le (List.getElem?_eq_none_iff.1 h)
    obtain ⟨m, rfl⟩ : ∃ m, k = m + 1 := ⟨k - 1, by simp only [length_span] at all; omega⟩
    obtain ⟨earlier, there⟩ := exists_getElem?_span (Nat.le_of_eq all)
    obtain ⟨directed, at_earlier, same⟩ := after_spanning there
    obtain ⟨next, eq, -⟩ | ⟨-, ended⟩ := directed.advance_cases
    · rw [at_earlier, same, counterAfter_span there, h] at eq
      contradiction
    · rw [after_succ, value?, ended]
      rfl

end Register

/-! ### Loops -/

open BlockStage.Task

variable (program : Program) (owner : ObjectId) (counter : String) (first last : Int64)
  (body : List Instruction)

def counting (passes : Nat) : Frame := .forEach counter (span first last)[passes]? last body

/-- What a variable holds each time a frame is put on top of the one at some height. -/
def entries (name : String) (height : Nat) (paces : List Pace) : List Float :=
  (paces.filter fun p =>
      p.stack.length = height && (p.move program owner).left.length = height + 1).map
    fun p => (p.outcome program owner).vars.get name

variable {program owner counter first last body} {above below stack : List Frame}
  {paces : List Pace} {k : Nat} {w : World}

theorem advance_counting (k : Nat) (w : World) :
    (counting counter first last body k).advance owner w =
      match (span first last)[k]? with
      | some value => (.push body (counting counter first last body (k + 1)),
          w.setVar counter (Scalar.ofWord value))
      | none => (.pop, w) := by
  unfold counting
  cases h : (span first last)[k]? with
  | none => rfl
  | some value => simp only [Frame.advance, counterAfter_span h]

theorem step_counting
    (lives : (step program owner (counting counter first last body k :: below) w).1 ≠ .finish) :
    step program owner (counting counter first last body k :: below) w =
      match (span first last)[k]? with
      | some value => (.go (.sequence body :: counting counter first last body (k + 1) :: below),
          w.setVar counter (Scalar.ofWord value))
      | none => (.go below, w) := by
  rw [step] at lives ⊢
  split
  · rw [stepTop, advance_counting]
    cases (span first last)[k]? <;> rfl
  · rename_i unready
    rw [if_neg unready] at lives
    contradiction

/-! ### Entries -/

theorem entries_cons_of_above {p : Pace} {name : String} {height : Nat}
    (above : p.stack.length ≠ height) :
    entries program owner name height (p :: paces) = entries program owner name height paces := by
  rw [entries, List.filter_cons_of_neg (by simp [above]), entries]

theorem entries_cons_counting
    (lives : (step program owner (counting counter first last body k :: below) w).1 ≠ .finish) :
    entries program owner counter (below.length + 1)
        (⟨counting counter first last body k :: below, w⟩ :: paces) =
      (span first last)[k]?.toList.map Scalar.ofWord ++
        entries program owner counter (below.length + 1) paces := by
  have made := step_counting lives
  cases there : (span first last)[k]? with
  | some value =>
    rw [there] at made
    rw [entries, List.filter_cons_of_pos (by simp [Pace.move, made, Move.left]), List.map_cons]
    simp only [Pace.outcome, made, World.setVar, World.showVar, World.tell, Variables.get_set,
      if_true]
    rfl
  | none =>
    rw [there] at made
    have leaves : ¬ below.length = below.length + 1 + 1 := by omega
    rw [entries, List.filter_cons_of_neg (by simp [Pace.move, made, Move.left, leaves])]
    rfl

theorem drop_take_of_getElem? {α : Type} {l : List α} {i j : Nat} {a : α} (h : l[i]? = some a)
    (less : i < j) : (l.take j).drop i = a :: (l.take j).drop (i + 1) := by
  obtain ⟨inside, rfl⟩ := List.getElem?_eq_some_iff.1 h
  rw [List.drop_eq_getElem_cons (by rw [List.length_take]; omega), List.getElem_take]

/-- From any pass on, and whatever becomes of the world in between. What the body does above the
loop ends, if it ends at all, with the loop on top. -/
theorem life_of_counting (le : k ≤ (span first last).length)
    (life : Life program owner (above ++ counting counter first last body k :: below) paces stack)
    (inside : ∀ p ∈ paces, below.length < p.stack.length) :
    ∃ j, k ≤ j ∧ j ≤ (span first last).length ∧
      entries program owner counter (below.length + 1) paces =
        (((span first last).take j).drop k).map Scalar.ofWord ∧
      ((j = (span first last).length ∧ stack = below) ∨
        ∃ above', stack = above' ++ counting counter first last body j :: below) := by
  generalize start : above ++ counting counter first last body k :: below = frames at life
  induction life generalizing above k with
  | refl frames =>
    subst start
    exact ⟨k, Nat.le_refl k, le, by simp [entries], .inr ⟨above, rfl⟩⟩
  | @step frames stack paces w lives later ih =>
    subst start
    obtain ⟨-, inside_later⟩ := List.forall_mem_cons.1 inside
    cases above with
    | nil =>
      have made := step_counting lives
      rw [List.nil_append, entries_cons_counting lives]
      cases there : (span first last)[k]? with
      | some value =>
        have less := (List.getElem?_eq_some_iff.1 there).1
        rw [there] at made
        rw [List.nil_append, made] at ih
        have entered : [.sequence body] ++ counting counter first last body (k + 1) :: below =
            .sequence body :: counting counter first last body (k + 1) :: below := rfl
        obtain ⟨j, ge, bound, rest, ends⟩ := ih less inside_later entered
        refine ⟨j, by omega, bound, ?_, ends⟩
        rw [rest, drop_take_of_getElem? there ge]
        rfl
      | none =>
        have all : k = (span first last).length :=
          Nat.le_antisymm le (List.getElem?_eq_none_iff.1 there)
        rw [there] at made
        rw [List.nil_append, made] at later
        -- The loop is gone, so that a further step would not be inside it.
        cases later with
        | refl => exact ⟨k, Nat.le_refl k, le, by simp [entries, all], .inl ⟨all, rfl⟩⟩
        | step w _ _ => exact absurd (inside_later _ List.mem_cons_self) (Nat.lt_irrefl _)
    | cons top rest =>
      obtain ⟨above', left⟩ := exists_left_append (List.cons_ne_nil top rest) rfl lives
      rw [entries_cons_of_above (by simp; omega)]
      exact ih le inside_later left.symm

/-- A loop that counts from one word to another passes once for each whole number from the one to
the other, in their order and for any body. A counter in three words that looks for the end after
its step is always where the loop is, and no sum or difference leaves the words. Every visit of the
loop sets the variable to the value that is up and puts the body on top, or takes the loop away when
there is none, whatever world it finds. So a task that is in the loop has entered its body with the
values up to one of them, and a task that has left it with all of them, though the body and others
may have written the variable at any time. From tick to tick what is left of a task goes on with its
life. -/
theorem loop_passes_whole_range (program : Program) (owner : ObjectId) (counter : String)
    (first last : Int64) (body : List Instruction) (below : List Frame) :
    let values := span first last
    let loop := counting counter first last body
    let passes := (last.toInt - first.toInt).natAbs + 1
    loop 0 = .forEach counter (some first) last body ∧
    values.map Int64.toInt = (List.range passes).map (fun k : Nat =>
      if first ≤ last then first.toInt + k else first.toInt - k) ∧
    (∀ k ≤ passes, let register := (Register.spanning first last).after k
      loop k = .forEach counter register.value? last body ∧ (k < passes → register.Exact)) ∧
    (∀ k w, (loop k).advance owner w =
      match values[k]? with
      | some value => (.push body (loop (k + 1)), w.setVar counter (Scalar.ofWord value))
      | none => (.pop, w)) ∧
    (∀ paces stack, Life program owner (loop 0 :: below) paces stack →
      (∀ p ∈ paces, below.length < p.stack.length) →
      ∃ j ≤ passes,
        entries program owner counter (below.length + 1) paces =
          (values.take j).map Scalar.ofWord ∧
        ((j = passes ∧ stack = below) ∨ ∃ above, stack = above ++ loop j :: below)) ∧
    ∀ (t t' : Task) w, (Scheduler.visit program t w).1 = some t' →
      ∃ paces, Life program t.owner t.frames paces t'.frames := by
  intro values loop passes
  have all : values.length = passes := length_span first last
  refine ⟨?_, toInt_span first last, fun k le => ⟨?_, fun less => ?_⟩, advance_counting,
    fun paces stack life inside => ?_, fun t t' w => Scheduler.life_of_visit⟩
  · exact congrArg (Frame.forEach counter · last body) (getElem?_span_zero first last)
  · exact congrArg (Frame.forEach counter · last body) (Register.value?_after (all ▸ le)).symm
  · obtain ⟨value, there⟩ := exists_getElem?_span (all ▸ less)
    exact (Register.after_spanning there).1.exact
  · have whole : Life program owner ([] ++ loop 0 :: below) paces stack := life
    obtain ⟨j, -, le, entered, ends⟩ := life_of_counting (Nat.zero_le _) whole inside
    exact ⟨j, all ▸ le, entered, all ▸ ends⟩

section Example

/-- Up to the greatest word, while something else keeps writing the variable. -/
theorem loop_passes_greatest_word :
    let loop := counting "i" 9223372036854775806 9223372036854775807 []
    let meddled := World.setVar { World.ofConfig {} with running := true } "i" 5
    let paces : List Pace := [⟨[loop 0], meddled⟩, ⟨[.sequence [], loop 1], meddled⟩,
      ⟨[loop 1], meddled⟩, ⟨[.sequence [], loop 2], meddled⟩, ⟨[loop 2], meddled⟩]
    Life {} ⟨1⟩ [loop 0] paces [] ∧ (∀ p ∈ paces, 0 < p.stack.length) ∧
    entries {} ⟨1⟩ "i" 1 paces =
      [9223372036854775806, 9223372036854775807].map Scalar.ofWord := by
  intro loop meddled paces
  have life : Life {} ⟨1⟩ [loop 0] paces [] :=
    .cons rfl (by simp) <| .cons rfl (by simp) <| .cons rfl (by simp) <| .cons rfl (by simp) <|
      .cons rfl (by simp) <| .refl []
  have inside : ∀ p ∈ paces, 0 < p.stack.length := by simp [paces]
  obtain ⟨-, -, -, -, lives, -⟩ := loop_passes_whole_range {} ⟨1⟩ "i" 9223372036854775806
    9223372036854775807 [] []
  obtain ⟨j, -, entered, ⟨rfl, -⟩ | ⟨above, left⟩⟩ := lives paces [] life inside
  · exact ⟨life, inside, entered⟩
  · simp at left

end Example

end BlockStage.Structured
