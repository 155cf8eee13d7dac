import BlockStage.Proofs.Session.Conditions

/-! The two variables with an event at zero. Only a command that drains such a variable raises the
event, and only as it takes the variable from above zero to zero or below; so between two events of
a run something lifts the variable above zero again. -/

namespace BlockStage

/-- A variable that is drained. -/
inductive Gauge
  | health
  | lives

namespace Gauge

def name : Gauge → String
  | health => "health"
  | lives => "lives"

def zero : Gauge → Event
  | health => .healthZero
  | lives => .livesZero

def Drains : Gauge → Command → Prop
  | health, .damage _ => True
  | lives, .loseLife => True
  | _, _ => False

/-- A command that drains the variable takes it from above zero to zero or below. -/
def Crosses (g : Gauge) (x : Posting) : Prop :=
  (∃ i ∈ x.instruction?, g.Drains i.command) ∧
    0 < x.world.vars.get g.name ∧ x.outcome.vars.get g.name ≤ 0

/-- Something is written into the variable that lifts it above zero. -/
def Lifts (g : Gauge) (x : Posting) : Prop :=
  x.world.vars.get g.name ≤ 0 ∧ ∃ value, x.written? = some (g.name, value) ∧ 0 < value

end Gauge

theorem Variables.get_write_other {v : Variables} {written : Option (String × Float)}
    {name : String} (other : ∀ value, written ≠ some (name, value)) :
    (v.write written).get name = v.get name := by
  cases written with
  | none => rfl
  | some q =>
    have ne : name ≠ q.1 := fun same => other q.2 (by rw [same])
    rw [write, get_set, if_neg ne]

namespace Instruction

variable (i : Instruction) (w : World)

theorem raises_length : (i.raises w).length ≤ 1 := by
  unfold raises
  split
  case h_2 | h_3 => split <;> exact Nat.le_of_ble_eq_true rfl
  all_goals exact Nat.le_of_ble_eq_true rfl

theorem zero_mem_raises_iff (g : Gauge) :
    g.zero ∈ i.raises w ↔
      g.Drains i.command ∧ 0 < w.vars.get g.name ∧
        (w.vars.write (i.written? w)).get g.name ≤ 0 := by
  have drained (name : String) (amount : Float) (event : Event) :
      event ∈ (if w.drains name amount then [event] else []) ↔
        0 < w.vars.get name ∧ (w.vars.change name (-amount)).get name ≤ 0 := by
    rw [World.drains]
    split <;> simp_all
  obtain ⟨opcode, arguments, kind, command, children, elseChildren⟩ := i
  cases command with
  | damage amount =>
    cases g with
    | health => exact (drained "health" amount .healthZero).trans (iff_of_eq (true_and _)).symm
    | lives => simp [raises, Gauge.zero, Gauge.Drains]
  | loseLife =>
    cases g with
    | health => simp [raises, Gauge.zero, Gauge.Drains]
    | lives => exact (drained "lives" 1 .livesZero).trans (iff_of_eq (true_and _)).symm
  | _ => cases g <;> simp [raises, Gauge.zero, Gauge.Drains]

end Instruction

namespace Posting

theorem events_length (x : Posting) : x.events.length ≤ 1 := by
  cases x with
  | happens x =>
    rw [events_happens]
    cases (happens x).instruction? with
    | none => exact Nat.zero_le 1
    | some i => exact i.raises_length x.world
  | passes counter value world => rw [events_passes]; exact Nat.zero_le 1
  | counts dt world => rw [events_counts]; split <;> decide
  | takes world => rw [events_takes]; exact Nat.zero_le 1

theorem zero_mem_events_iff (x : Posting) (g : Gauge) : g.zero ∈ x.events ↔ g.Crosses x := by
  cases x with
  | happens x =>
    rw [events_happens, Gauge.Crosses, vars_outcome, written?]
    cases (happens x).instruction? with
    | none => simp
    | some i =>
      have executed := i.zero_mem_raises_iff x.world g
      simpa [world] using executed
  | passes counter value world => simp [events_passes, Gauge.Crosses, instruction?]
  | counts dt world =>
    rw [events_counts]
    cases g <;> split <;> simp [Gauge.Crosses, Gauge.zero, instruction?]
  | takes world => simp [events_takes, Gauge.Crosses, instruction?]

end Posting

/-- Between two crossings something lifts the variable again. -/
theorem Leads.exists_lift {g : Gauge} {w w' : World} {x y : Posting}
    {earlier between later : Account}
    (h : Leads w (earlier ++ x :: (between ++ y :: later)) w') (first : g.Crosses x)
    (again : g.Crosses y) (numbers : ∀ z ∈ between, z.world.vars.Numbers) :
    ∃ z ∈ between, g.Lifts z := by
  have leads : Leads x.outcome between y.world := h.split.2.split.1
  have low : ¬ 0 < x.outcome.vars.get g.name := fun above => Scalar.not_le_of_lt above first.2.2
  obtain ⟨z, there, before, after⟩ := leads.exists_loss
    (I := fun w => ¬ 0 < w.vars.get g.name) (fun same low => same.vars ▸ low) low
    (not_not_intro again.2.1)
  refine ⟨z, there, Scalar.le_of_not_lt (numbers z there _) rfl before, ?_⟩
  rw [z.vars_outcome, not_not] at after
  by_cases writes : ∃ value, z.written? = some (g.name, value)
  · obtain ⟨value, written⟩ := writes
    rw [written, Variables.write, Variables.get_set, if_pos rfl] at after
    exact ⟨value, written, after⟩
  · rw [Variables.get_write_other (not_exists.1 writes)] at after
    exact absurd after before

namespace Session

/-- The event at zero is raised just when a command that drains the variable takes it from above
zero to zero or below, then once. Between two such events something is written that lifts the
variable above zero again. -/
theorem zero_events_mark_crossings (config : Config) (before : List Action) (settings : Settings)
    (actions : List Action)
    (one_run : (((ofConfig config).actAll before).start settings).OneRun actions) :
    let s := (ofConfig config).actAll before
    (∃ account, s.AccountedBy settings actions account) ∧
    ∀ account, s.AccountedBy settings actions account → ∀ g : Gauge,
      (∀ x ∈ account, x.events.length ≤ 1 ∧ (g.zero ∈ x.events ↔ g.Crosses x)) ∧
      ∀ earlier x between y later, account = earlier ++ x :: (between ++ y :: later) →
        g.zero ∈ x.events → g.zero ∈ y.events →
        ∃ z ∈ between, g.Lifts z := by
  intro s
  refine ⟨exists_account config before settings one_run, fun account accounted g => ⟨?_, ?_⟩⟩
  · exact fun x _ => ⟨x.events_length, x.zero_mem_events_iff g⟩
  · rintro earlier x between y later rfl first again
    refine accounted.leads.exists_lift ((x.zero_mem_events_iff g).1 first)
      ((y.zero_mem_events_iff g).1 again) fun z there => ?_
    refine (accounted.numbers.1 z ?_).1
    exact List.mem_append_right _ (List.mem_cons_of_mem _ (List.mem_append_left _ there))

section Example

def fightScene : Scene := clickScene
  [⟨2, "damage", [("amount", .number (.real 100))], [], []⟩,
    ⟨3, "heal", [("amount", .number (.real 50))], [], []⟩,
    ⟨4, "damage", [("amount", .number (.real 50))], [], []⟩]

def fighting : Session := (ofConfig {}).actAll [.edit fun _ => fightScene]

def hit (amount : Float) : Instruction :=
  ⟨.damage, [("amount", .number amount)], .command, .damage amount, [], []⟩

def healing : Instruction := ⟨.heal, [("amount", .number 50)], .command, .heal 50, [], []⟩

theorem awaits_fighting : (fighting.start {}).dispatcher.Awaits .click (some ⟨1⟩)
    ⟨⟨1⟩, ⟨.click, [], [hit 100, healing, hit 50]⟩⟩ (fighting.start {}).scheduler
    (fighting.start {}).world where
  dispatches := rfl
  matching := rfl
  straight := List.forall_mem_cons.2 ⟨fun _ => rfl, List.forall_mem_cons.2 ⟨fun _ => rfl,
    List.forall_mem_singleton.2 fun _ => rfl⟩⟩
  nonempty := List.cons_ne_nil _ _
  running := rfl
  there := rfl
  room := by decide

def fightAfter (code : List Instruction) : World :=
  (fighting.start {}).world.afterCode (fighting.start {}).dispatcher.program ⟨1⟩ code

def fought (i : Instruction) (code : List Instruction) : Posting :=
  .happens (.does 0 ⟨⟨1⟩, .executes i, fightAfter code⟩)

theorem listed_fighting :
    (fighting.startLog {}).posted ++ (fighting.start {}).playAccount [.dispatch .click (some ⟨1⟩)] =
      [.happens (.does 0 ⟨⟨1⟩, .starts (.sequence [hit 100, healing, hit 50]), fightAfter []⟩),
        fought (hit 100) [], fought healing [hit 100], fought (hit 50) [hit 100, healing]] := by
  obtain ⟨-, logs⟩ := act_straight awaits_fighting
  have opening : (fighting.startLog {}).posted = [] := rfl
  rw [opening, playAccount, playAccount, accountOf, logs, ite_self]
  · rfl
  · exact fun _ same => by contradiction

theorem crosses_first : Gauge.health.Crosses (fought (hit 100) []) :=
  ⟨⟨_, rfl, trivial⟩, by decide, by decide⟩

theorem crosses_again : Gauge.health.Crosses (fought (hit 50) [hit 100, healing]) :=
  ⟨⟨_, rfl, trivial⟩, by decide, by decide⟩

/-- Health is taken twice, and lifted in between. -/
theorem lifted_between_two_hits :
    let actions := [.dispatch .click (some ⟨1⟩)]
    (fighting.start {}).OneRun actions ∧
      ∃ account, fighting.AccountedBy {} actions account ∧
        ∃ earlier x between y later, account = earlier ++ x :: (between ++ y :: later) ∧
          .healthZero ∈ x.events ∧ .healthZero ∈ y.events ∧
            ∃ z ∈ between, Gauge.health.Lifts z := by
  intro actions
  have one_run : (fighting.start {}).OneRun actions := ⟨rfl, nofun, trivial⟩
  obtain ⟨⟨account, accounted⟩, crossings⟩ :=
    zero_events_mark_crossings {} [.edit fun _ => fightScene] {} actions one_run
  refine ⟨one_run, account, accounted, ?_⟩
  have listed := accounted.listed.trans listed_fighting
  obtain ⟨a, tail, rfl, -, -, listed⟩ := List.filter_eq_cons_iff.1 listed
  obtain ⟨b, tail, rfl, -, -, listed⟩ := List.filter_eq_cons_iff.1 listed
  obtain ⟨c, tail, rfl, -, -, listed⟩ := List.filter_eq_cons_iff.1 listed
  obtain ⟨d, later, rfl, -, -, -⟩ := List.filter_eq_cons_iff.1 listed
  have parts (w x y z : Posting) : a ++ w :: (b ++ x :: (c ++ y :: (d ++ z :: later))) =
      (a ++ w :: b) ++ x :: ((c ++ y :: d) ++ z :: later) := by simp
  rw [parts] at accounted ⊢
  obtain ⟨marks, lifts⟩ := crossings _ accounted .health
  have first := (marks _ (by simp)).2.2 crosses_first
  have again := (marks _ (by simp)).2.2 crosses_again
  exact ⟨_, _, _, _, _, rfl, first, again, lifts _ _ _ _ _ rfl first again⟩

end Example

end Session
end BlockStage
