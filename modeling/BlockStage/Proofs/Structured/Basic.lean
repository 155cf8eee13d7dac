import BlockStage.Run.Execute

/-! A reference semantics of scripts, by recursion on their structure and without a stack. It has
no outcome for code that suspends. -/

namespace BlockStage.Structured

/-- How some code is over: at its end, or with all the code around it given up. -/
inductive Ending
  | completed
  | abandoned
deriving DecidableEq

/-- The ending of some code, the frames that want a task of their own, and the world after it;
`none` if the code suspends. -/
abbrev Piece := World → Option (Ending × List Frame × World)

def done : Piece := fun w => some (.completed, [], w)

def andThen (first second : Piece) : Piece := fun w =>
  match first w with
  | some (.completed, spawned, w') =>
    (second w').map fun (ending, later, w'') => (ending, spawned ++ later, w'')
  | halted => halted

def inTurn (pieces : List Piece) : Piece := pieces.foldr andThen done

/-- All integers from the first to the last, downwards if the last is below the first. -/
def span (first last : Int64) : List Int64 :=
  (List.range ((last.toInt - first.toInt).natAbs + 1)).map fun k : Nat =>
    .ofInt (if first ≤ last then first.toInt + k else first.toInt - k)

/-- One instruction, given what a list of instructions inside it does. -/
def instruction (program : Program) (owner : ObjectId) (nested : List Instruction → Piece)
    (i : Instruction) : Piece := fun w =>
  match i.command with
  | .wait _ => none
  | .whileHolds _ => none
  | .waitUntil condition =>
    match condition.holds owner w with
    | (true, w) => done w
    | (false, _) => none
  | .glide target seconds relative =>
    match w.glide owner target seconds relative with
    | (.next, w) => done w
    | _ => none
  | .repeatTimes count =>
    if i.children.isEmpty then done w else inTurn ((List.replicate count i.children).map nested) w
  | .forEach counter first last =>
    inTurn ((span first last).map fun value w =>
      nested i.children (w.setVar counter (Scalar.ofWord value))) w
  | .ifThen condition =>
    match condition.holds owner w with
    | (true, w) => nested i.children w
    | (false, w) => done w
  | .ifElse condition =>
    match condition.holds owner w with
    | (true, w) => nested i.children w
    | (false, w) => nested i.elseChildren w
  | .call name =>
    match program.definition? owner name with
    | some definition => nested definition.body w
    | none => done w
  | .forever =>
    if i.children.isEmpty then done w else some (.completed, [.forever i.children false], w)
  | .stop => some (.abandoned, [], w)
  | .destroy => some (.abandoned, [], w.removeObject owner)
  | _ => done (i.execute owner program w).2

/-- A list of instructions whose containers and calls are nested in at most that many levels. -/
def eval (program : Program) (owner : ObjectId) : (levels : Nat) → List Instruction → Piece
  | 0, _ => fun _ => none
  | levels + 1, body => inTurn (body.map (instruction program owner (eval program owner levels)))

variable {program : Program} {owner : ObjectId}

theorem andThen_eq_some {first second : Piece} {w w' : World} {ending : Ending}
    {spawned : List Frame} (h : andThen first second w = some (ending, spawned, w')) :
    (∃ before w₁ later, first w = some (.completed, before, w₁) ∧
      second w₁ = some (ending, later, w') ∧ spawned = before ++ later) ∨
    (ending = .abandoned ∧ first w = some (.abandoned, spawned, w')) := by
  unfold andThen at h
  split at h
  · rename_i before w₁ hf
    obtain ⟨⟨ending', later, w''⟩, hs, he⟩ := Option.map_eq_some_iff.1 h
    obtain ⟨rfl, rfl, rfl⟩ := he
    exact .inl ⟨before, w₁, later, hf, hs, rfl⟩
  · rename_i hf
    cases ending with
    | completed => exact absurd h (hf spawned w')
    | abandoned => exact .inr ⟨rfl, h⟩

/-! ### The number of levels is only a bound -/

def Extends (p q : Piece) : Prop := ∀ w o, p w = some o → q w = some o

theorem extends_andThen {p p' q q' : Piece} (first : Extends p p') (second : Extends q q') :
    Extends (andThen p q) (andThen p' q') := by
  rintro w ⟨ending, spawned, w'⟩ h
  obtain ⟨before, w₁, later, hp, hq, rfl⟩ | ⟨rfl, hp⟩ := andThen_eq_some h
  · simp only [andThen, first _ _ hp, second _ _ hq, Option.map_some]
  · simp only [andThen, first _ _ hp]

theorem extends_inTurn {α : Type} {p q : α → Piece} (h : ∀ a, Extends (p a) (q a)) (xs : List α) :
    Extends (inTurn (xs.map p)) (inTurn (xs.map q)) := by
  induction xs with
  | nil => exact fun _ _ h => h
  | cons a xs ih => exact extends_andThen (h a) ih

theorem extends_instruction {nested nested' : List Instruction → Piece}
    (h : ∀ body, Extends (nested body) (nested' body)) (i : Instruction) :
    Extends (instruction program owner nested i) (instruction program owner nested' i) := by
  intro w o hi
  obtain ⟨opcode, arguments, kind, command, children, elseChildren⟩ := i
  cases command with
  | repeatTimes count =>
    simp only [instruction] at hi ⊢
    split at hi
    · rename_i empty
      rw [if_pos empty]
      exact hi
    · rename_i nonempty
      rw [if_neg nonempty]
      exact extends_inTurn h (List.replicate count children) w o hi
  | forEach counter first last =>
    exact extends_inTurn (fun value w o => h children _ o) (span first last) w o hi
  | ifThen condition =>
    simp only [instruction] at hi ⊢
    split at hi
    · exact h _ _ _ hi
    · exact hi
  | ifElse condition =>
    simp only [instruction] at hi ⊢
    split at hi
    · exact h _ _ _ hi
    · exact h _ _ _ hi
  | call name =>
    simp only [instruction] at hi ⊢
    split at hi
    · exact h _ _ _ hi
    · exact hi
  | _ => exact hi

theorem eval_succ (levels : Nat) (body : List Instruction) :
    Extends (eval program owner levels body) (eval program owner (levels + 1) body) := by
  induction levels generalizing body with
  | zero =>
    intro w o h
    simp [eval] at h
  | succ levels ih => exact extends_inTurn (extends_instruction ih) body

theorem eval_of_le {levels levels' : Nat} (le : levels ≤ levels') (body : List Instruction) :
    Extends (eval program owner levels body) (eval program owner levels' body) := by
  induction le with
  | refl => exact fun _ _ h => h
  | step _ ih => exact fun w o h => eval_succ _ body w o (ih w o h)

end BlockStage.Structured
