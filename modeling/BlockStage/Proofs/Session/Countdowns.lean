import BlockStage.Proofs.Session.Clock
import BlockStage.Proofs.Session.Conditions

/-! The countdown of a run. The steps that follow its start use it up, unless another start takes
its place, and the first of them that leaves nothing raises the event; no other does. -/

namespace BlockStage

def Posting.step? : Posting → Option Float
  | counts dt _ => some dt
  | _ => none

namespace Account

def steps (account : Account) : List Float := account.filterMap Posting.step?

def events (account : Account) : List Event := account.flatMap Posting.events

def Unstarted (account : Account) : Prop := ∀ x ∈ account, x.starts? = none

theorem events_cons (x : Posting) (rest : Account) : events (x :: rest) = x.events ++ events rest :=
  rfl

theorem steps_append (account account' : Account) :
    steps (account ++ account') = account.steps ++ account'.steps :=
  List.filterMap_append

theorem steps_listed (account : Account) : account.listed.steps = account.steps := by
  rw [steps, listed, List.filterMap_filter]
  exact List.filterMap_congr fun x _ => by cases x <;> rfl

theorem unstarted_of_listed {account : Account} (h : account.listed.Unstarted) :
    account.Unstarted := by
  intro x there
  cases x with
  | happens | counts => exact h _ (List.mem_filter.2 ⟨there, rfl⟩)
  | passes | takes => rfl

end Account

theorem Log.steps_posted (log : Log) : log.posted.steps = [] := by
  rw [Account.steps, posted, List.filterMap_map]
  exact List.filterMap_eq_nil_iff.2 fun _ _ => rfl

/-! ### The time that is left -/

def timeLeft (seconds : Float) (steps : List Float) : Float := steps.foldl (· - ·) seconds

def lasts (seconds : Float) : List Float → Bool
  | [] => true
  | dt :: rest => decide (0 < seconds - dt) && lasts (seconds - dt) rest

theorem isNaN_timeLeft {seconds : Float} {steps : List Float} (number : seconds.isNaN = false)
    (finite : ∀ dt ∈ steps, dt.isFinite = true) : (timeLeft seconds steps).isNaN = false := by
  induction steps generalizing seconds with
  | nil => exact number
  | cons dt rest ih =>
    rw [List.forall_mem_cons] at finite
    exact ih (Scalar.isNaN_sub number finite.1) finite.2

/-! ### One posting -/

namespace Posting

theorem timerDone_notMem_raises (i : Instruction) (w : World) : .timerDone ∉ i.raises w := by
  unfold Instruction.raises
  split
  case h_2 | h_3 => split <;> simp
  all_goals simp

theorem count_timerDone (x : Posting) :
    x.events.count .timerDone =
      if x.step?.any x.world.countdownEnds then 1 else 0 := by
  cases x with
  | happens x =>
    rw [events_happens]
    cases (happens x).instruction? with
    | none => rfl
    | some i => exact List.count_eq_zero.2 (timerDone_notMem_raises i x.world)
  | passes counter value world => rw [events_passes]; rfl
  | counts dt world =>
    rw [events_counts]
    change _ = if world.countdownEnds dt then 1 else 0
    split <;> rfl
  | takes world => rw [events_takes]; rfl

theorem countdown_of_unstarted {x : Posting} (unstarted : x.starts? = none) :
    x.outcome.countdown = x.world.countdown.bind fun left =>
      match x.step? with
      | some dt => if left - dt ≤ 0 then none else some (left - dt)
      | none => some left := by
  cases x with
  | counts dt world => exact world.countdown_advanceCountdown dt
  | happens | passes | takes =>
    rw [countdown_outcome fun _ _ same => by contradiction, unstarted, Option.none_or]
    exact (Option.bind_fun_some _).symm

end Posting

/-! ### Stretches without a start -/

namespace Leads

variable {w w' : World} {account : Account}

theorem idle (h : Leads w account w') (idles : w.countdown = none) (unstarted : account.Unstarted) :
    w'.countdown = none ∧ account.events.count .timerDone = 0 := by
  induction account generalizing w with
  | nil => exact ⟨h.countdown.trans idles, rfl⟩
  | cons x rest ih =>
    obtain ⟨first, later⟩ := List.forall_mem_cons.1 unstarted
    have still : x.world.countdown = none := h.1.countdown.trans idles
    have left : x.outcome.countdown = none := by
      rw [Posting.countdown_of_unstarted first, still, Option.bind_none]
    have silent : x.step?.any x.world.countdownEnds = false := by
      cases x.step? <;> simp [World.countdownEnds, still]
    obtain ⟨ends, quiet⟩ := ih h.2 left later
    rw [Account.events_cons, List.count_append, x.count_timerDone, silent, quiet]
    exact ⟨ends, rfl⟩

theorem counts {seconds : Float} (h : Leads w account w') (counting : w.countdown = some seconds)
    (unstarted : account.Unstarted) (number : seconds.isNaN = false)
    (finite : ∀ dt ∈ account.steps, dt.isFinite = true) :
    w'.countdown =
        (if lasts seconds account.steps then some (timeLeft seconds account.steps) else none) ∧
      account.events.count .timerDone = if lasts seconds account.steps then 0 else 1 := by
  induction account generalizing w seconds with
  | nil => exact ⟨h.countdown.trans counting, rfl⟩
  | cons x rest ih =>
    obtain ⟨first, later⟩ := List.forall_mem_cons.1 unstarted
    have still : x.world.countdown = some seconds := h.1.countdown.trans counting
    have left := Posting.countdown_of_unstarted first
    have raises := x.count_timerDone
    rw [still, Option.bind_some] at left
    rw [Account.events_cons, List.count_append, raises]
    cases step : x.step? with
    | none =>
      have same : Account.steps (x :: rest) = Account.steps rest := List.filterMap_cons_none step
      rw [step] at left
      rw [same] at finite ⊢
      simpa using ih h.2 left later number finite
    | some dt =>
      have same : Account.steps (x :: rest) = dt :: Account.steps rest :=
        List.filterMap_cons_some step
      rw [step] at left
      rw [same, List.forall_mem_cons] at finite
      have rests : (seconds - dt).isNaN = false := Scalar.isNaN_sub number finite.1
      have less : timeLeft seconds (dt :: Account.steps rest) =
          timeLeft (seconds - dt) (Account.steps rest) := rfl
      rw [same, lasts, less]
      dsimp only [Option.any_some] at left ⊢
      simp only [World.countdownEnds, still, Option.any_some]
      by_cases more : 0 < seconds - dt
      · have lasting : ¬ seconds - dt ≤ 0 := Scalar.not_le_of_lt more
        rw [if_neg lasting] at left
        simpa [more, lasting] using ih h.2 left later rests finite.2
      · have ended : seconds - dt ≤ 0 := Scalar.le_of_not_lt rests rfl more
        rw [if_pos ended] at left
        obtain ⟨ends, quiet⟩ := h.2.idle left later
        simp [more, ended, ends, quiet]

theorem ends_at {seconds dt : Float} {so_far rest : Account} {v : World}
    (h : Leads w (so_far ++ .counts dt v :: rest) w') (counting : w.countdown = some seconds)
    (unstarted : so_far.Unstarted) (number : seconds.isNaN = false)
    (finite : ∀ d ∈ so_far.steps, d.isFinite = true) (also : dt.isFinite = true) :
    let left := timeLeft seconds so_far.steps
    v.countdown = (if lasts seconds so_far.steps then some left else none) ∧
      (.timerDone ∈ (Posting.counts dt v).events ↔
        lasts seconds so_far.steps = true ∧ ¬ 0 < left - dt) := by
  intro left
  have here : v.countdown = if lasts seconds so_far.steps then some left else none :=
    (h.split.1.counts counting unstarted number finite).1
  refine ⟨here, ?_⟩
  rw [Posting.events_counts, World.countdownEnds, here]
  by_cases lasting : lasts seconds so_far.steps = true
  · have rests : (left - dt).isNaN = false :=
      Scalar.isNaN_sub (isNaN_timeLeft number finite) also
    have ends : left - dt ≤ 0 ↔ ¬ 0 < left - dt :=
      ⟨fun none more => Scalar.not_le_of_lt more none, Scalar.le_of_not_lt rests rfl⟩
    by_cases none : left - dt ≤ 0 <;> simp_all
  · simp [lasting]

end Leads

namespace World

variable {w : World}

theorem advanceCountdown_of_idle (idle : w.countdown = none) (dt : Float) :
    w.advanceCountdown dt = w := by
  rw [advanceCountdown, idle]

theorem shows_advanceCountdown {left : Float} (counting : w.countdown = some left) (dt : Float) :
    (Scalar.ceil (Scalar.larger (left - dt) 0) == (w.advanceCountdown dt).vars.get "timer") =
      true := by
  have number := (Scalar.isNaN_ceil _).trans (Scalar.isNaN_larger_zero (left - dt))
  rw [vars_advanceCountdown, countdownWrites?, counting, Option.bind_some]
  dsimp only
  split
  · assumption
  · rw [Variables.write, Variables.get_set, if_pos rfl]
    exact Scalar.beq_self number

end World

/-! ### Runs -/

theorem Posting.not_counts_of_starts {x : Posting} {seconds : Float}
    (starts : x.starts? = some seconds) (dt : Float) (w : World) : x ≠ counts dt w := by
  rintro rfl
  contradiction

namespace Session

theorem countdown_opened (s : Session) (settings : Settings) :
    (s.opened settings).world.countdown = none := by
  simp only [opened, World.showAllVars_eq]
  rfl

theorem steps_advanceAccount (s : Session) (dt : Float) : (s.advanceAccount dt).steps = [dt] := by
  simp only [advanceAccount, Account.steps_append, Log.steps_posted, List.nil_append,
    List.append_nil]
  rfl

theorem frame_of_step {s : Session} {actions : List Action} {dt : Float}
    (step : dt ∈ (s.playAccount actions).steps) :
    ∃ frame, .tick frame ∈ actions ∧ dt = frameTime frame := by
  induction actions generalizing s with
  | nil => contradiction
  | cons a rest ih =>
    rw [playAccount, Account.steps_append, List.mem_append] at step
    rcases step with now | later
    · cases a with
      | tick frame =>
        refine ⟨frame, List.mem_cons_self, ?_⟩
        rw [accountOf, tickAccount, Account.steps_append, Log.steps_posted, List.nil_append] at now
        split at now
        · rw [steps_advanceAccount] at now
          exact List.mem_singleton.1 now
        · contradiction
      | _ =>
        rw [accountOf, Log.steps_posted] at now
        · contradiction
        · exact fun _ same => by contradiction
    · split at later
      · obtain ⟨frame, among, length⟩ := ih later
        exact ⟨frame, List.mem_cons_of_mem _ among, length⟩
      · contradiction

theorem AccountedBy.finite_steps {s : Session} {settings : Settings} {actions : List Action}
    {account : Account} (h : s.AccountedBy settings actions account)
    (timely : ∀ a ∈ actions, a.Timely) : ∀ dt ∈ account.steps, dt.isFinite = true := by
  intro dt step
  rw [← account.steps_listed, h.listed, Account.steps_append, Log.steps_posted,
    List.nil_append] at step
  obtain ⟨frame, among, rfl⟩ := frame_of_step step
  obtain ⟨above, below⟩ := frameTime_between (timely _ among)
  exact Scalar.isFinite_of_between above below rfl rfl

theorem AccountedBy.finite_start {s : Session} {settings : Settings} {actions : List Action}
    {account : Account} (h : s.AccountedBy settings actions account) {x : Posting}
    (there : x ∈ account) {seconds : Float} (starts : x.starts? = some seconds) :
    seconds.isFinite = true := by
  obtain ⟨i, executed, command⟩ := Option.bind_eq_some_iff.1 starts
  have finite := Program.finite_of_has (h.runs x there i executed)
  unfold Instruction.starts? at command
  split at command
  · rename_i seconds' is
    obtain rfl := Option.some.inj command
    exact finite seconds' (is ▸ List.mem_cons_self)
  · contradiction

/-- A countdown that is started in a run comes to its end once at most, before the next one starts
or the run ends: in the first step that does not leave more than zero seconds. Nothing else raises
the event. As long as it lasts, every step has the variable show what is left in whole seconds, and
without a countdown a step changes nothing. -/
theorem countdowns_finish_once (config : Config) (before : List Action) (settings : Settings)
    (actions : List Action)
    (one_run : (((ofConfig config).actAll before).start settings).OneRun actions)
    (timely : ∀ a ∈ actions, a.Timely) :
    let s := (ofConfig config).actAll before
    (∃ account, s.AccountedBy settings actions account) ∧
    ∀ account, s.AccountedBy settings actions account →
      (∀ (earlier : Account) (x : Posting) (stretch later : Account) (seconds : Float),
        account = earlier ++ x :: (stretch ++ later) → x.starts? = some seconds →
        stretch.Unstarted →
        stretch.events.count .timerDone = (if lasts seconds stretch.steps then 0 else 1) ∧
        ∀ (so_far : Account) (dt : Float) (w : World) (rest : Account),
          stretch = so_far ++ .counts dt w :: rest →
          let left := timeLeft seconds so_far.steps
          w.countdown = (if lasts seconds so_far.steps then some left else none) ∧
          (.timerDone ∈ (Posting.counts dt w).events ↔
            lasts seconds so_far.steps = true ∧ ¬ 0 < left - dt)) ∧
      (∀ earlier later : Account, account = earlier ++ later → earlier.Unstarted →
        earlier.events.count .timerDone = 0) ∧
      (∀ x ∈ account, .timerDone ∈ x.events → x.step?.isSome) ∧
      ∀ dt w, .counts dt w ∈ account →
        (w.countdown = none → w.advanceCountdown dt = w) ∧
        ∀ left, w.countdown = some left →
          (Scalar.ceil (Scalar.larger (left - dt) 0) ==
            (w.advanceCountdown dt).vars.get "timer") = true := by
  intro s
  refine ⟨exists_account config before settings one_run, fun account accounted => ?_⟩
  have finite := accounted.finite_steps timely
  refine ⟨?_, ?_, ?_, fun dt w _ => ⟨(w.advanceCountdown_of_idle · dt), fun left counting =>
    w.shows_advanceCountdown counting dt⟩⟩
  · rintro earlier x stretch later seconds rfl starts unstarted
    have number : seconds.isNaN = false := Scalar.isNaN_of_isFinite
      (accounted.finite_start (List.mem_append_right _ List.mem_cons_self) starts)
    have begun : x.outcome.countdown = some seconds := by
      rw [Posting.countdown_outcome (Posting.not_counts_of_starts starts), starts, Option.some_or]
    have within (part : Account) (among : part ⊆ stretch) :
        ∀ dt ∈ part.steps, dt.isFinite = true := by
      refine fun dt step => finite dt (List.filterMap_subset _ (fun z there => ?_) step)
      exact List.mem_append_right _ (List.mem_cons_of_mem _ (List.mem_append_left _ (among there)))
    obtain ⟨w', leads, -⟩ := accounted.leads.split.2.exists_between
    refine ⟨(leads.counts begun unstarted number (within stretch fun _ => id)).2, ?_⟩
    rintro so_far dt w rest rfl
    exact leads.ends_at begun (fun z there => unstarted z (List.mem_append_left _ there)) number
      (within so_far (List.subset_append_left ..))
      (within [.counts dt w] (by simp) dt List.mem_cons_self)
  · rintro earlier later rfl unstarted
    obtain ⟨w', leads, -⟩ := accounted.leads.exists_between
    exact (leads.idle (s.countdown_opened settings) unstarted).2
  · intro x _ ends
    have once := List.count_pos_iff.2 ends
    rw [x.count_timerDone] at once
    cases step : x.step? with
    | none => simp [step] at once
    | some dt => rfl

section Example

def ringingScene : Scene :=
  clickScene [⟨2, "startTimer", [("seconds", .number (.real 0.01))], [], []⟩]

def ringing : Session := (ofConfig {}).actAll [.edit fun _ => ringingScene]

def ringCode : Instruction :=
  ⟨.startTimer, [("seconds", .number 0.01)], .command, .startTimer 0.01, [], []⟩

theorem awaits_ringing : (ringing.start {}).dispatcher.Awaits .click (some ⟨1⟩)
    ⟨⟨1⟩, ⟨.click, [], [ringCode]⟩⟩ (ringing.start {}).scheduler (ringing.start {}).world where
  dispatches := rfl
  matching := rfl
  straight := List.forall_mem_singleton.2 fun _ => rfl
  nonempty := List.cons_ne_nil _ _
  running := rfl
  there := rfl
  room := by decide

/-- The countdown has been started, and its object is gone. -/
def rung : Session := ((ringing.start {}).act (.dispatch .click (some ⟨1⟩))).act (.removeObject ⟨1⟩)

theorem rung_eq : rung = ({ ringing.start {} with
    scheduler := ⟨[], 1⟩
    world := (ringing.start {}).world.afterCode (ringing.start {}).dispatcher.program ⟨1⟩ [ringCode]
    } : Session).removeObject ⟨1⟩ := by
  rw [rung, (act_straight awaits_ringing).1]
  rfl

def ringActions : List Action :=
  [.dispatch .click (some ⟨1⟩), .removeObject ⟨1⟩, .tick 0.015625]

theorem isRunning_rung : rung.isRunning = true ∧ (rung.tick 0.015625).isRunning = true := by
  rw [rung_eq]
  exact ⟨rfl, by decide +kernel⟩

theorem tickAccount_rung : ∃ w, rung.tickAccount 0.015625 = [.counts 0.015625 w] := by
  have steps : (rung.tickAccount 0.015625).map Posting.step? = [some 0.015625] := by
    rw [rung_eq]
    decide +kernel
  obtain ⟨x, single, step⟩ := List.map_eq_singleton_iff.1 steps
  cases x with
  | counts dt w =>
    obtain rfl := Option.some.inj step
    exact ⟨w, single⟩
  | happens | passes | takes => contradiction

theorem oneRun_ringing : (ringing.start {}).OneRun ringActions := by
  refine ⟨rfl, nofun, ?_, nofun, isRunning_rung.1, nofun, trivial⟩
  rw [(act_straight awaits_ringing).1]
  rfl

theorem listed_ringing : ∃ last,
    (ringing.startLog {}).posted ++ (ringing.start {}).playAccount ringActions =
      [.happens (.does 0 ⟨⟨1⟩, .starts (.sequence [ringCode]), (ringing.start {}).world⟩),
        .happens (.does 0 ⟨⟨1⟩, .executes ringCode, (ringing.start {}).world⟩),
        .happens (.removes ⟨1⟩ ((ringing.start {}).act (.dispatch .click (some ⟨1⟩))).world),
        .counts 0.015625 last] := by
  obtain ⟨-, logs⟩ := act_straight awaits_ringing
  obtain ⟨-, -, running, -, still, -, -⟩ := oneRun_ringing
  obtain ⟨last, frame⟩ := tickAccount_rung
  have opening : (ringing.startLog {}).posted = [] := rfl
  have framed : rung.playAccount [.tick 0.015625] = [.counts 0.015625 last] := by
    rw [playAccount, accountOf, frame, playAccount, ite_self]
    rfl
  refine ⟨last, ?_⟩
  rw [opening, ringActions, playAccount, if_pos running, playAccount, if_pos still, accountOf, logs,
    accountOf]
  · change _ ++ (_ ++ (_ ++ rung.playAccount [.tick 0.015625])) = _
    rw [framed]
    rfl
  · exact fun _ same => by contradiction
  · exact fun _ same => by contradiction

/-- A countdown of a hundredth of a second, and a frame of a sixty-fourth: the event is raised. -/
theorem rings_once :
    (ringing.start {}).OneRun ringActions ∧ (∀ a ∈ ringActions, a.Timely) ∧
      ∃ account, ringing.AccountedBy {} ringActions account ∧
        ∃ (earlier : Account) (x : Posting) (stretch : Account),
          account = earlier ++ x :: stretch ∧ x.starts? = some 0.01 ∧
            stretch.events.count .timerDone = 1 := by
  have timely : ∀ a ∈ ringActions, a.Timely := by
    have number : (0.015625 : Float32).isNaN = false := by decide
    exact List.forall_mem_cons.2 ⟨trivial, List.forall_mem_cons.2 ⟨trivial,
      List.forall_mem_singleton.2 number⟩⟩
  refine ⟨oneRun_ringing, timely, ?_⟩
  obtain ⟨⟨account, accounted⟩, finishes⟩ := countdowns_finish_once {} [.edit fun _ => ringingScene]
    {} ringActions oneRun_ringing timely
  refine ⟨account, accounted, ?_⟩
  obtain ⟨last, played⟩ := listed_ringing
  have listed := accounted.listed.trans played
  obtain ⟨a, tail, rfl, -, -, listed⟩ := List.filter_eq_cons_iff.1 listed
  obtain ⟨b, stretch, rfl, -, -, listed⟩ := List.filter_eq_cons_iff.1 listed
  have unstarted : Account.Unstarted stretch := Account.unstarted_of_listed <| by
    rw [Account.listed, listed]
    exact List.forall_mem_cons.2 ⟨rfl, List.forall_mem_singleton.2 rfl⟩
  have steps : Account.steps stretch = [0.015625] := by
    rw [← Account.steps_listed, Account.listed, listed]
    rfl
  have parts (x y : Posting) : a ++ x :: (b ++ y :: stretch) = (a ++ x :: b) ++ y :: stretch := by
    simp
  rw [parts] at accounted ⊢
  obtain ⟨ends, -⟩ := (finishes _ accounted).1 _ _ stretch [] 0.01
    (by rw [List.append_nil]) rfl unstarted
  rw [steps] at ends
  exact ⟨_, _, stretch, rfl, rfl, ends⟩

end Example

end Session

end BlockStage
