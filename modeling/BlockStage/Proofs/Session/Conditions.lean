import BlockStage.Proofs.Session.Straight
import BlockStage.Proofs.Scalar.Comparing
import BlockStage.Proofs.Script.Finiteness
import BlockStage.Proofs.Session.Accounts
import BlockStage.Proofs.Session.Showing

/-! Conditions on variables. Scripts write finite numbers, so a variable may become infinite but is
a number throughout a run; and for a number it can be said which of the six comparisons agree. -/

namespace BlockStage

/-! ### Variables are numbers -/

def Variables.Numbers (v : Variables) : Prop := ∀ name, (v.get name).isNaN = false

theorem Variables.isFinite_startingValue (name : String) :
    (startingValue name).isFinite = true := by
  have all : ∀ p ∈ starting, p.2.isFinite = true := by decide
  unfold startingValue
  cases found : starting.lookup name with
  | none => rfl
  | some value =>
    obtain ⟨before, after, split, -⟩ := List.lookup_eq_some_iff.1 found
    exact all (name, value) (split ▸ List.mem_append_right _ List.mem_cons_self)

theorem Variables.get_initial (name : String) : initial.get name = startingValue name := by
  have distinct : (starting.map (·.1)).Nodup := by decide
  have listed : initial.values.get? name = starting.lookup name := by
    rw [initial, Named.get?_ofList]
    cases found : starting.lookup name with
    | none =>
      have absent := List.lookup_eq_none_iff.1 found
      exact List.lookup_eq_none_iff.2 fun p there => absent p (List.mem_reverse.1 there)
    | some value =>
      obtain ⟨before, after, split, -⟩ := List.lookup_eq_some_iff.1 found
      refine Named.get?_eq_some_of_mem ?_ (List.mem_reverse.2 ?_)
      · rw [List.map_reverse, List.nodup_reverse]
        exact distinct
      · exact split ▸ List.mem_append_right _ List.mem_cons_self
  rw [get, listed, startingValue]

theorem Variables.numbers_initial : initial.Numbers := fun name => by
  rw [get_initial]
  exact Scalar.isNaN_of_isFinite (isFinite_startingValue name)

theorem Variables.Numbers.write {v : Variables} (numbers : v.Numbers)
    {written : Option (String × Float)} (number : ∀ q ∈ written, q.2.isNaN = false) :
    (v.write written).Numbers := by
  intro name
  cases written with
  | none => exact numbers name
  | some q =>
    rw [Variables.write, Variables.get_set]
    split
    · exact number q rfl
    · exact numbers name

/-! ### What is written is a number -/

theorem Instruction.number_of_written {i : Instruction} {w : World} (numbers : w.vars.Numbers)
    (finite : ∀ x ∈ i.command.doubles, x.isFinite = true) :
    ∀ q ∈ i.written? w, q.2.isNaN = false := by
  have one : (1 : Float).isFinite = true := by decide
  have less : (-1 : Float).isFinite = true := by decide
  have hundred : mostHealth.isNaN = false := by decide
  intro q written
  obtain ⟨opcode, arguments, kind, command, children, elseChildren⟩ := i
  cases command with
  | setVar name value =>
    obtain rfl := Option.some.inj written
    exact Scalar.isNaN_of_isFinite (finite value List.mem_cons_self)
  | changeVar name amount | addScore amount =>
    obtain rfl := Option.some.inj written
    exact Scalar.isNaN_add (numbers _) (finite amount List.mem_cons_self)
  | resetVar name =>
    obtain rfl := Option.some.inj written
    exact Scalar.isNaN_of_isFinite (Variables.isFinite_startingValue name)
  | damage amount =>
    obtain rfl := Option.some.inj written
    exact Scalar.isNaN_add (numbers _) (Scalar.isFinite_neg (finite amount List.mem_cons_self))
  | heal amount =>
    obtain rfl := Option.some.inj written
    exact Scalar.isNaN_smaller
      (Scalar.isNaN_add (numbers _) (finite amount List.mem_cons_self)) hundred
  | collectItem =>
    obtain rfl := Option.some.inj written
    exact Scalar.isNaN_add (numbers _) one
  | loseLife =>
    obtain rfl := Option.some.inj written
    exact Scalar.isNaN_add (numbers _) less
  | startTimer seconds =>
    obtain rfl := Option.some.inj written
    exact (Scalar.isNaN_ceil seconds).trans
      (Scalar.isNaN_of_isFinite (finite seconds List.mem_cons_self))
  | _ => contradiction

theorem World.number_of_countdownWrites {w : World} {dt : Float} :
    ∀ q ∈ w.countdownWrites? dt, q.2.isNaN = false := by
  intro q written
  obtain ⟨left, -, shown⟩ := Option.bind_eq_some_iff.1 written
  dsimp only at shown
  split at shown
  · contradiction
  · obtain rfl := Option.some.inj shown
    exact (Scalar.isNaN_ceil _).trans (Scalar.isNaN_larger_zero _)

theorem Posting.number_of_written {x : Posting} (numbers : x.world.vars.Numbers)
    (finite : ∀ i ∈ x.instruction?, ∀ a ∈ i.command.doubles, a.isFinite = true) :
    ∀ q ∈ x.written?, q.2.isNaN = false := by
  intro q written
  cases x with
  | happens x =>
    obtain ⟨i, executed, written⟩ := Option.bind_eq_some_iff.1 written
    exact Instruction.number_of_written numbers (finite i executed) q written
  | passes counter value world =>
    obtain rfl := Option.some.inj written
    exact Scalar.isNaN_ofWord value
  | counts dt world => exact World.number_of_countdownWrites q written
  | takes world => contradiction

theorem Program.finite_of_has {scene : Scene} {i : Instruction}
    (has : (ofScene .standard scene).Has i) : ∀ x ∈ i.command.doubles, x.isFinite = true := by
  obtain ⟨e, listed, nested⟩ := has
  obtain ⟨o, -, ofObject⟩ := List.mem_flatMap.1 listed
  obtain ⟨script, ofCanvas, rfl⟩ := List.mem_map.1 ofObject
  obtain ⟨s, -, compiled⟩ := List.mem_filterMap.1 ofCanvas
  unfold Stack.compile? at compiled
  split at compiled
  · contradiction
  · simp only [Option.bind_eq_bind, Option.bind_eq_some_iff] at compiled
    obtain ⟨entry, -, compiled⟩ := compiled
    split at compiled
    · simp only [Option.bind_eq_some_iff, Option.pure_def, Option.some.injEq] at compiled
      obtain ⟨trigger, -, rfl⟩ := compiled
      exact nested.lowered.finite.2.1
    · contradiction

namespace Session

theorem vars_opened (s : Session) (settings : Settings) :
    (s.opened settings).world.vars = .initial := by
  simp only [opened, World.showAllVars_eq]
  rfl

theorem AccountedBy.numbers {s : Session} {settings : Settings} {actions : List Action}
    {account : Account} (h : s.AccountedBy settings actions account) :
    (∀ x ∈ account, x.world.vars.Numbers ∧ x.outcome.vars.Numbers) ∧
      ((s.start settings).afterAll actions).world.vars.Numbers := by
  refine h.leads.invariant (I := fun w => w.vars.Numbers)
    (fun same numbers => same.vars ▸ numbers) (fun x there numbers => ?_) ?_
  · rw [x.vars_outcome]
    exact numbers.write (Posting.number_of_written numbers fun i executed =>
      Program.finite_of_has (h.runs x there i executed))
  · rw [vars_opened]
    exact Variables.numbers_initial

/-- Whenever a script of a run asks, a variable reads a number, and "≠" is the opposite of "=".
"≤" is "<" or "=" but for one case: a number above the other, by less than the tolerance, counts as
equal and not as at most the other. Likewise "≥" is ">" or "=" but for a number that little below
the other. -/
theorem conditions_cohere_iff (config : Config) (before : List Action) (settings : Settings)
    (actions : List Action)
    (one_run : (((ofConfig config).actAll before).start settings).OneRun actions) :
    let s := (ofConfig config).actAll before
    (∃ account, s.AccountedBy settings actions account) ∧
    ∀ account, s.AccountedBy settings actions account →
      ∀ w, (w = ((s.start settings).afterAll actions).world ∨
          ∃ x ∈ account, w = x.world ∨ w = x.outcome) →
      ∀ (owner : ObjectId) (name : String) (value : Float), value.isFinite = true →
        let read := w.vars.get name
        let asks := fun symbol =>
          ((Condition.variableIs name (.ofSymbol symbol) value).holds owner w).1
        read.isNaN = false ∧
        asks "≠" = !asks "=" ∧
        (asks "≤" = (asks "<" || asks "=") ↔
          ¬ (value < read ∧ (read - value).abs < Comparison.tolerance)) ∧
        (asks "≥" = (asks ">" || asks "=") ↔
          ¬ (read < value ∧ (read - value).abs < Comparison.tolerance)) := by
  intro s
  refine ⟨exists_account config before settings one_run, ?_⟩
  intro account accounted w there owner name value finite read asks
  have number : read.isNaN = false := by
    obtain ⟨along, last⟩ := accounted.numbers
    rcases there with rfl | ⟨x, listed, rfl | rfl⟩
    · exact last name
    · exact (along x listed).1 name
    · exact (along x listed).2 name
  exact ⟨number, Comparison.holds_different number finite,
    Comparison.holds_atMost_iff number finite, Comparison.holds_atLeast_iff number finite⟩

section Example

def sumScene : Scene := clickScene
  [⟨2, "setVar", [("var", .text "x"), ("value", .number (.real 0.1))], [], []⟩,
    ⟨3, "changeVar", [("var", .text "x"), ("amount", .number (.real 0.2))], [], []⟩]

def summing : Session := (ofConfig {}).actAll [.edit fun _ => sumScene]

def sumCode : List Instruction :=
  [⟨.setVar, [("value", .number 0.1), ("var", .text "x")], .command, .setVar "x" 0.1, [], []⟩,
    ⟨.changeVar, [("amount", .number 0.2), ("var", .text "x")], .command, .changeVar "x" 0.2, [],
      []⟩]

theorem awaits_summing : (summing.start {}).dispatcher.Awaits .click (some ⟨1⟩)
    ⟨⟨1⟩, ⟨.click, [], sumCode⟩⟩ (summing.start {}).scheduler (summing.start {}).world where
  dispatches := rfl
  matching := rfl
  straight := List.forall_mem_cons.2 ⟨fun _ => rfl, List.forall_mem_singleton.2 fun _ => rfl⟩
  nonempty := List.cons_ne_nil _ _
  running := rfl
  there := rfl
  room := by decide

def summed : World :=
  (summing.start {}).world.afterCode (summing.start {}).dispatcher.program ⟨1⟩ sumCode

theorem afterAll_summing :
    ((summing.start {}).afterAll [.dispatch .click (some ⟨1⟩)]).world = summed := by
  rw [afterAll, (act_straight awaits_summing).1]
  rfl

/-- After 0.1 + 0.2 the variable counts as equal to 0.3 and not as less, but not as at most 0.3. -/
theorem equal_but_not_at_most :
    let actions := [.dispatch .click (some ⟨1⟩)]
    (summing.start {}).OneRun actions ∧
      let asks := fun symbol => ((Condition.variableIs "x" (.ofSymbol symbol) 0.3).holds ⟨1⟩
        ((summing.start {}).afterAll actions).world).1
      (0.3 : Float).isFinite = true ∧ ¬ (asks "≤" = true ↔ asks "<" = true ∨ asks "=" = true) := by
  refine ⟨⟨rfl, nofun, trivial⟩, by decide, ?_⟩
  rw [afterAll_summing]
  decide

/-- It still counts as at least 0.3, and in one of two ways: as more or as equal. -/
theorem sum_at_least :
    let actions := [.dispatch .click (some ⟨1⟩)]
    (summing.start {}).OneRun actions ∧
      let asks := fun symbol => ((Condition.variableIs "x" (.ofSymbol symbol) 0.3).holds ⟨1⟩
        ((summing.start {}).afterAll actions).world).1
      (0.3 : Float).isFinite = true ∧ asks "≠" = !asks "=" ∧
        asks "≥" = (asks ">" || asks "=") := by
  have one_run : (summing.start {}).OneRun [.dispatch .click (some ⟨1⟩)] := ⟨rfl, nofun, trivial⟩
  obtain ⟨⟨account, accounted⟩, coherent⟩ := conditions_cohere_iff {} [.edit fun _ => sumScene] {}
    [.dispatch .click (some ⟨1⟩)] one_run
  obtain ⟨-, different, -, atLeast⟩ :=
    coherent account accounted _ (.inl rfl) ⟨1⟩ "x" 0.3 (by decide)
  refine ⟨one_run, by decide, different, atLeast.2 fun below => ?_⟩
  have more : ¬ summed.vars.get "x" < 0.3 := by decide
  exact more (afterAll_summing ▸ below.1)

end Example

end Session
end BlockStage
