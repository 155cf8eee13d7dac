import BlockStage.Run.Step

/-!
The work left in a stack of frames. Every step that goes on leaves less of it: loops have a finite
count or rest, and calls cannot stack up without a bound.
-/

namespace BlockStage

namespace Frame

/-- The passes of a counted loop over all values from the next to the last. -/
def passes (next : Option Int64) (last : Int64) : Nat :=
  match next with
  | none => 0
  | some value => (last.toInt - value.toInt).natAbs + 1

/-- A counter comes one nearer to the last value, from below or from above, or has reached it. -/
theorem counterAfter_cases (value last : Int64) :
    (value.toInt < last.toInt ∧ (value + 1).toInt = value.toInt + 1 ∧
      counterAfter value last = some (value + 1)) ∨
    (last.toInt < value.toInt ∧ (value - 1).toInt = value.toInt - 1 ∧
      counterAfter value last = some (value - 1)) ∨
    (value = last ∧ counterAfter value last = none) := by
  have hv := value.toInt_lt
  have hv' := value.le_toInt
  have hl := last.toInt_lt
  have hl' := last.le_toInt
  unfold counterAfter
  split
  · rename_i h
    have h := Int64.lt_iff_toInt_lt.1 h
    refine .inl ⟨h, ?_, rfl⟩
    rw [Int64.toInt_add, Int64.toInt_one, Int.bmod_eq_of_le] <;> omega
  · split
    · rename_i h
      have h := Int64.lt_iff_toInt_lt.1 h
      refine .inr (.inl ⟨h, ?_, rfl⟩)
      rw [Int64.toInt_sub, Int64.toInt_one, Int.bmod_eq_of_le] <;> omega
    · rename_i h h'
      rw [Int64.lt_iff_toInt_lt] at h h'
      exact .inr (.inr ⟨Int64.toInt_inj.1 (by omega), rfl⟩)

theorem passes_counterAfter (value last : Int64) :
    passes (counterAfter value last) last + 1 = passes (some value) last := by
  obtain ⟨less, step, eq⟩ | ⟨less, step, eq⟩ | ⟨rfl, eq⟩ := counterAfter_cases value last
  · simp only [eq, passes, step]
    omega
  · simp only [eq, passes, step]
    omega
  · simp [eq, passes]

end Frame

namespace Instruction

/-- The frames an instruction may ask to enter. -/
def framesFor (i : Instruction) (owner : ObjectId) (program : Program) : List Frame :=
  match i.command with
  | .repeatTimes count => [.repeatTimes i.children count]
  | .ifThen _ => [.sequence i.children]
  | .ifElse _ => [.sequence i.children, .sequence i.elseChildren]
  | .whileHolds condition => [.whileHolds condition i.children false]
  | .forEach counter first last => [.forEach counter (some first) last i.children]
  | .call name => (program.definition? owner name).toList.map (.sequence ·.body)
  | _ => []

theorem enterBody_eq_enter {body : List Instruction} {frame : Frame}
    (h : enterBody body = .enter frame) : frame = .sequence body := by
  unfold enterBody at h
  split at h
  · contradiction
  · exact (Flow.enter.inj h).symm

theorem mem_framesFor {i : Instruction} {owner : ObjectId} {program : Program} {w w' : World}
    {frame : Frame} (h : i.execute owner program w = (.enter frame, w')) :
    frame ∈ i.framesFor owner program := by
  obtain ⟨opcode, arguments, kind, command, children, elseChildren⟩ := i
  cases command with
  | glide target seconds relative =>
    simp only [execute, World.glide] at h
    split at h
    · simp at h
    · split at h <;> simp at h
  | waitUntil condition => simp only [execute] at h; split at h <;> simp at h
  | repeatTimes count =>
    simp only [execute] at h
    split at h
    · simp at h
    · simp only [Prod.mk.injEq, Flow.enter.injEq] at h
      simp [framesFor, h.1]
  | forever => simp only [execute] at h; split at h <;> simp at h
  | ifThen condition =>
    simp only [execute] at h
    split at h
    · simp [framesFor, enterBody_eq_enter (Prod.mk.inj h).1]
    · simp at h
  | ifElse condition =>
    simp only [execute] at h
    split at h <;> simp [framesFor, enterBody_eq_enter (Prod.mk.inj h).1]
  | whileHolds condition =>
    simp only [execute, Prod.mk.injEq, Flow.enter.injEq] at h
    simp [framesFor, h.1]
  | forEach counter first last =>
    simp only [execute, Prod.mk.injEq, Flow.enter.injEq] at h
    simp [framesFor, h.1]
  | call name =>
    simp only [execute] at h
    split at h
    · rename_i hd
      simp only [Prod.mk.injEq, Flow.enter.injEq] at h
      simp [framesFor, hd, h.1]
    · simp at h
  | _ => simp [execute] at h

end Instruction

namespace Frame

/-- A bound on the steps that a frame can take with room for `room` frames, itself included. -/
def work (owner : ObjectId) (program : Program) : (room : Nat) → Frame → Nat
  | 0, _ => 0
  | room + 1, sequence rest =>
    rest.foldr (fun i later =>
      (i.framesFor owner program).foldr (work owner program room · + ·) (1 + later)) 1
  | room + 1, repeatTimes body left => 1 + left * (1 + work owner program room (sequence body))
  | room + 1, forever body resting =>
    if resting then 1 else 2 + work owner program room (sequence body)
  | room + 1, whileHolds _ body resting =>
    if resting then 1 else 2 + work owner program room (sequence body)
  | room + 1, forEach _ next last body =>
    1 + passes next last * (1 + work owner program room (sequence body))

end Frame

namespace Task

/-- A bound on the steps that a stack can take until it halts. -/
def work (owner : ObjectId) (program : Program) : List Frame → Nat
  | [] => 0
  | top :: below =>
    top.work owner program (mostFrames - below.length) + work owner program below

/-- The frames with which a move goes on. -/
def Move.ahead? : Move → Option (List Frame)
  | go frames => some frames
  | spawn frames _ => some frames
  | _ => none

/-- Adding up over a list starts from the base and only grows. -/
theorem le_foldr_add {α : Type} (f : α → Nat) (base : Nat) (xs : List α) :
    base ≤ xs.foldr (f · + ·) base := by
  induction xs with
  | nil => exact Nat.le_refl base
  | cons x xs ih =>
    rw [List.foldr_cons]
    omega

theorem add_le_foldr_add {α : Type} (f : α → Nat) (base : Nat) {xs : List α} {a : α}
    (h : a ∈ xs) : f a + base ≤ xs.foldr (f · + ·) base := by
  induction xs with
  | nil => simp at h
  | cons x xs ih =>
    rw [List.foldr_cons]
    rcases List.mem_cons.1 h with rfl | h
    · have := le_foldr_add f base xs
      omega
    · have := ih h
      omega

theorem work_run {owner : ObjectId} {program : Program} {i : Instruction} {rest below : List _}
    {w : World} {frames : List Frame} (room : below.length < mostFrames)
    (h : (Move.ofFlow (.sequence rest :: below) (i.execute owner program w).1).ahead? =
      some frames) :
    work owner program frames < work owner program (.sequence (i :: rest) :: below) := by
  obtain ⟨n, hn⟩ : ∃ n, mostFrames - below.length = n + 1 :=
    ⟨mostFrames - below.length - 1, by omega⟩
  have hn' : mostFrames - (below.length + 1) = n := by omega
  have self : work owner program (.sequence rest :: below) <
      work owner program (.sequence (i :: rest) :: below) := by
    simp only [work, hn, Frame.work, List.foldr_cons]
    have := le_foldr_add (Frame.work owner program n)
      (1 + Frame.work owner program (n + 1) (.sequence rest)) (i.framesFor owner program)
    simp only [Frame.work] at this
    omega
  rcases he : i.execute owner program w with ⟨flow, w'⟩
  rw [he] at h
  cases flow with
  | next => simp only [Move.ofFlow, Move.ahead?, Option.some.injEq] at h; exact h ▸ self
  | spawn frame => simp only [Move.ofFlow, Move.ahead?, Option.some.injEq] at h; exact h ▸ self
  | enter frame =>
    simp only [Move.ofFlow, Move.ahead?, Option.some.injEq] at h
    subst h
    have entered := add_le_foldr_add (Frame.work owner program n)
      (1 + Frame.work owner program (n + 1) (.sequence rest)) (Instruction.mem_framesFor he)
    simp only [Frame.work] at entered
    simp only [work, hn, hn', List.length_cons, Frame.work, List.foldr_cons]
    omega
  | suspend wake => simp [Move.ofFlow, Move.ahead?] at h
  | stop => simp [Move.ofFlow, Move.ahead?] at h

theorem work_step {owner : ObjectId} {program : Program} {frames frames' : List Frame}
    {w : World} (h : (step program owner frames w).1.ahead? = some frames') :
    work owner program frames' < work owner program frames := by
  cases frames with
  | nil => simp [step, Move.ahead?] at h
  | cons top below =>
    simp only [step] at h
    split at h
    · rename_i hr
      have room : below.length < mostFrames := by simp_all
      obtain ⟨n, hn⟩ : ∃ n, mostFrames - below.length = n + 1 :=
        ⟨mostFrames - below.length - 1, by omega⟩
      have hn' : mostFrames - (below.length + 1) = n := by omega
      cases top with
      | sequence rest =>
        cases rest with
        | nil =>
          simp only [stepTop, Frame.advance, Move.ahead?, Option.some.injEq] at h
          subst h
          simp only [work, hn, Frame.work, List.foldr_nil]
          omega
        | cons i rest =>
          simp only [stepTop, Frame.advance] at h
          exact work_run room h
      | repeatTimes body left =>
        cases left with
        | zero =>
          simp only [stepTop, Frame.advance, Move.ahead?, Option.some.injEq] at h
          subst h
          simp only [work, hn, Frame.work]
          omega
        | succ left =>
          simp only [stepTop, Frame.advance, Move.ahead?, Option.some.injEq] at h
          subst h
          simp only [work, hn, hn', List.length_cons, Frame.work, Nat.succ_mul]
          omega
      | forever body resting =>
        cases resting with
        | true => simp [stepTop, Frame.advance, Move.ahead?] at h
        | false =>
          simp only [stepTop, Frame.advance, Move.ahead?, Option.some.injEq] at h
          subst h
          simp only [work, hn, hn', List.length_cons, Frame.work, if_true, Bool.false_eq_true,
            if_false]
          omega
      | whileHolds condition body resting =>
        cases resting with
        | true => simp [stepTop, Frame.advance, Move.ahead?] at h
        | false =>
          simp only [stepTop, Frame.advance] at h
          rcases hc : condition.holds owner w with ⟨_ | _, w'⟩
          · simp only [hc, Move.ahead?, Option.some.injEq] at h
            subst h
            simp only [work, hn, Frame.work, Bool.false_eq_true, if_false]
            omega
          · simp only [hc, Move.ahead?, Option.some.injEq] at h
            subst h
            simp only [work, hn, hn', List.length_cons, Frame.work, if_true, Bool.false_eq_true,
              if_false]
            omega
      | forEach counter next last body =>
        cases next with
        | none =>
          simp only [stepTop, Frame.advance, Move.ahead?, Option.some.injEq] at h
          subst h
          simp only [work, hn, Frame.work]
          omega
        | some value =>
          simp only [stepTop, Frame.advance, Move.ahead?, Option.some.injEq] at h
          subst h
          simp only [work, hn, hn', List.length_cons, Frame.work,
            ← Frame.passes_counterAfter value last, Nat.succ_mul]
          omega
    · simp [Move.ahead?] at h

end Task
end BlockStage
