import BlockStage.Proofs.Events.Delivery
import BlockStage.Proofs.Log.Traces
import BlockStage.Proofs.Run.Books
import BlockStage.Proofs.Run.Provenance

/-! The accounts of a run: its log, completed by all else that touches the books, which are the
counters of loops, the steps of the countdown and the events taken out to be dispatched. Every
posting takes up the books that the one before it left, so what holds at first and is kept by every
posting holds throughout. -/

namespace BlockStage

/-- Something that may change the books, and the world in which it happens. -/
inductive Posting
  | happens (x : Happening)
  /-- A counting loop begins a pass. -/
  | passes (counter : String) (value : Int64) (world : World)
  /-- The countdown goes on by `dt` seconds. -/
  | counts (dt : Float) (world : World)
  /-- The first of the events that wait is taken out. -/
  | takes (world : World)

abbrev Account := List Posting

namespace Posting

def world : Posting → World
  | happens x => x.world
  | passes _ _ world => world
  | counts _ world => world
  | takes world => world

def outcome : Posting → World
  | happens x => x.outcome
  | passes counter value world => world.setVar counter (Scalar.ofWord value)
  | counts dt world => world.advanceCountdown dt
  | takes world =>
    match world.popRaised? with
    | some (_, world) => world
    | none => world

def instruction? : Posting → Option Instruction
  | happens (.does _ ⟨_, .executes i, _⟩) => some i
  | _ => none

/-- It stands in the log, or is a step of the countdown. -/
def isListed : Posting → Bool
  | happens _ | counts _ _ => true
  | passes _ _ _ | takes _ => false

end Posting

/-- The postings that can be foretold from the log and the frames of a run. -/
def Account.listed (account : Account) : Account := account.filter Posting.isListed

theorem Account.listed_append (account account' : Account) :
    Account.listed (account ++ account') = account.listed ++ account'.listed :=
  List.filter_append ..

def Program.Runs (p : Program) (x : Posting) : Prop := ∀ i ∈ x.instruction?, p.Has i

theorem Program.Runs.of_idle {p : Program} {x : Posting} (idle : x.instruction? = none) :
    p.Runs x := fun i executed => by
  rw [idle] at executed
  contradiction

def Leads : World → Account → World → Prop
  | w, [], w' => w.SameBooks w'
  | w, x :: rest, w' => w.SameBooks x.world ∧ Leads x.outcome rest w'

namespace Leads

variable {w w' w'' : World} {account account' : Account}

protected theorem refl (w : World) : Leads w [] w := World.SameBooks.refl w

theorem single (x : Posting) : Leads x.world [x] x.outcome := ⟨.refl _, .refl _⟩

theorem of_sameBooks (same : w.SameBooks w') (h : Leads w' account w'') : Leads w account w'' := by
  cases account with
  | nil => exact same.trans h
  | cons x rest => exact ⟨same.trans h.1, h.2⟩

protected theorem append (first : Leads w account w') (second : Leads w' account' w'') :
    Leads w (account ++ account') w'' := by
  induction account generalizing w with
  | nil => exact second.of_sameBooks first
  | cons x rest ih => exact ⟨first.1, ih first.2⟩

theorem split {x : Posting} {later : Account} (h : Leads w (account ++ x :: later) w') :
    Leads w account x.world ∧ Leads x.outcome later w' := by
  induction account generalizing w with
  | nil => exact h
  | cons y rest ih => exact ⟨⟨h.1, (ih h.2).1⟩, (ih h.2).2⟩

theorem exists_between (h : Leads w (account ++ account') w'') :
    ∃ w', Leads w account w' ∧ Leads w' account' w'' := by
  induction account generalizing w with
  | nil => exact ⟨w, .refl w, h⟩
  | cons x rest ih =>
    obtain ⟨w', first, second⟩ := ih h.2
    exact ⟨w', ⟨h.1, first⟩, second⟩

/-- What depends on the books alone and is kept by every posting holds all along. -/
theorem invariant {I : World → Prop} (books : ∀ {w w' : World}, w.SameBooks w' → I w → I w')
    (kept : ∀ x ∈ account, I x.world → I x.outcome) (h : Leads w account w') (first : I w) :
    (∀ x ∈ account, I x.world ∧ I x.outcome) ∧ I w' := by
  induction account generalizing w with
  | nil => exact ⟨List.forall_mem_nil _, books h first⟩
  | cons x rest ih =>
    rw [List.forall_mem_cons] at kept
    have before := books h.1 first
    obtain ⟨all, last⟩ := ih kept.2 h.2 (kept.1 before)
    exact ⟨List.forall_mem_cons.2 ⟨⟨before, kept.1 before⟩, all⟩, last⟩

theorem exists_loss {I : World → Prop} (books : ∀ {w w' : World}, w.SameBooks w' → I w → I w')
    (h : Leads w account w') (first : I w) (lost : ¬ I w') :
    ∃ x ∈ account, I x.world ∧ ¬ I x.outcome := by
  refine Classical.byContradiction fun none => lost (h.invariant books ?_ first).2
  exact fun x there holds => Classical.byContradiction fun gone => none ⟨x, there, holds, gone⟩

end Leads

/-! ### What a posting writes -/

def World.countdownWrites? (w : World) (dt : Float) : Option (String × Float) :=
  w.countdown.bind fun left =>
    let shown := Scalar.ceil (Scalar.larger (left - dt) 0)
    if shown == w.vars.get "timer" then none else some ("timer", shown)

theorem World.vars_advanceCountdown (w : World) (dt : Float) :
    (w.advanceCountdown dt).vars = w.vars.write (w.countdownWrites? dt) := by
  unfold advanceCountdown countdownWrites?
  cases w.countdown with
  | none => rfl
  | some left =>
    dsimp only [Option.bind_some]
    split <;> split <;> rfl

theorem World.sameBooks_effects (w : World) (dt : Float32) : w.SameBooks (w.stepEffects dt) :=
  ⟨rfl, rfl, rfl⟩

theorem World.sameBooks_removeObject (w : World) (id : ObjectId) :
    w.SameBooks (w.removeObject id) := by
  unfold removeObject
  split <;> exact ⟨rfl, rfl, rfl⟩

namespace Posting

def written? : Posting → Option (String × Float)
  | happens x => (happens x).instruction?.bind (·.written? x.world)
  | passes counter value _ => some (counter, Scalar.ofWord value)
  | counts dt world => world.countdownWrites? dt
  | takes _ => none

def starts? (x : Posting) : Option Float := x.instruction?.bind Instruction.starts?

def events (x : Posting) : List Event :=
  (x.outcome.raised.toList.drop x.world.raised.toList.length).map (·.event)

theorem sameBooks_happening {x : Happening} (idle : (happens x).instruction? = none) :
    x.world.SameBooks x.outcome := by
  cases x with
  | does task deed =>
    obtain ⟨owner, act, world⟩ := deed
    cases act with
    | executes i => contradiction
    | starts frame => exact .refl world
    | checks condition => exact .refl world
  | animates dt world => exact world.sameBooks_effects dt
  | removes id world => exact world.sameBooks_removeObject id
  | edits scene world => exact ⟨rfl, rfl, rfl⟩

theorem eq_does {x : Posting} {i : Instruction} (h : x.instruction? = some i) :
    ∃ task owner, x = happens (.does task ⟨owner, .executes i, x.world⟩) := by
  unfold instruction? at h
  split at h
  · obtain rfl := Option.some.inj h
    exact ⟨_, _, rfl⟩
  · contradiction

theorem outcome_of_instruction {x : Posting} {i : Instruction} (h : x.instruction? = some i) :
    ∃ owner, x.outcome = (i.execute owner {} x.world).2 := by
  obtain ⟨task, owner, eq⟩ := eq_does h
  exact ⟨owner, congrArg outcome eq⟩

theorem vars_outcome (x : Posting) : x.outcome.vars = x.world.vars.write x.written? := by
  cases x with
  | happens x =>
    rw [written?]
    cases executed : (happens x).instruction? with
    | none => exact (sameBooks_happening executed).vars
    | some i =>
      obtain ⟨owner, left⟩ := outcome_of_instruction executed
      rw [left]
      exact i.vars_execute owner {} x.world
  | passes counter value world => rfl
  | counts dt world => exact world.vars_advanceCountdown dt
  | takes world =>
    simp only [outcome, World.popRaised?]
    cases world.raised.pop? <;> rfl

theorem countdown_outcome {x : Posting} (other : ∀ dt world, x ≠ counts dt world) :
    x.outcome.countdown = x.starts?.or x.world.countdown := by
  cases x with
  | happens x =>
    rw [starts?]
    cases executed : (happens x).instruction? with
    | none => exact (sameBooks_happening executed).countdown
    | some i =>
      obtain ⟨owner, left⟩ := outcome_of_instruction executed
      rw [left]
      exact i.countdown_execute owner {} x.world
  | passes counter value world => rfl
  | counts dt world => exact absurd rfl (other dt world)
  | takes world =>
    simp only [outcome, World.popRaised?]
    cases world.raised.pop? <;> rfl

theorem events_eq {x : Posting} {events : List Event}
    (added : x.outcome.raised.toList = x.world.raised.toList ++ events.map Event.toAll) :
    x.events = events := by
  rw [Posting.events, added, List.drop_left, List.map_map]
  exact List.map_id events

theorem events_happens (x : Happening) :
    (happens x).events = (happens x).instruction?.elim [] (·.raises x.world) := by
  apply events_eq
  cases executed : (happens x).instruction? with
  | none =>
    rw [outcome, (sameBooks_happening executed).raised]
    exact (List.append_nil _).symm
  | some i =>
    obtain ⟨owner, left⟩ := outcome_of_instruction executed
    rw [left]
    exact i.raised_execute owner {} x.world

theorem events_passes (counter : String) (value : Int64) (w : World) :
    (passes counter value w).events = [] :=
  events_eq (List.append_nil _).symm

theorem events_counts (dt : Float) (w : World) :
    (counts dt w).events = if w.countdownEnds dt then [.timerDone] else [] := by
  apply events_eq
  rw [outcome, w.raised_advanceCountdown dt]
  split <;> rfl

theorem events_takes (w : World) : (takes w).events = [] := by
  rw [events, List.map_eq_nil_iff, List.drop_eq_nil_iff]
  simp only [outcome, world, World.popRaised?]
  cases popped : w.raised.pop? with
  | none => exact Nat.le_refl _
  | some next =>
    rw [Queue.toList_of_pop? popped]
    exact Nat.le_succ _

end Posting

/-! ### The work of a program -/

/-- The work of the program that leads from one world to the other has an account in which just
these postings are listed. -/
def Covered (p : Program) (w : World) (listed : Account) (w' : World) : Prop :=
  ∃ account : Account, account.listed = listed ∧ Leads w account w' ∧ ∀ x ∈ account, p.Runs x

namespace Covered

variable {p : Program} {w w' w'' : World} {listed listed' : Account}

theorem nothing (same : w.SameBooks w') : Covered p w [] w' :=
  ⟨[], rfl, same, List.forall_mem_nil _⟩

protected theorem refl (w : World) : Covered p w [] w := nothing (.refl w)

protected theorem trans (first : Covered p w listed w') (second : Covered p w' listed' w'') :
    Covered p w (listed ++ listed') w'' := by
  obtain ⟨account, rfl, leads, runs⟩ := first
  obtain ⟨account', rfl, leads', runs'⟩ := second
  exact ⟨account ++ account', Account.listed_append _ _, leads.append leads',
    List.forall_mem_append.2 ⟨runs, runs'⟩⟩

theorem prepend (same : w.SameBooks w') (h : Covered p w' listed w'') : Covered p w listed w'' :=
  (nothing same).trans h

theorem single {x : Posting} (shown : x.isListed = true) (runs : p.Runs x) :
    Covered p x.world [x] x.outcome :=
  ⟨[x], by simp [Account.listed, shown], .single x, List.forall_mem_singleton.2 runs⟩

theorem unlisted {x : Posting} (hidden : x.isListed = false) (runs : p.Runs x) :
    Covered p x.world [] x.outcome :=
  ⟨[x], by simp [Account.listed, hidden], .single x, List.forall_mem_singleton.2 runs⟩

end Covered

section Work

variable {p : Program} {owner : ObjectId} {w w' : World}

theorem Frame.covered_advance (frame : Frame) (owner : ObjectId) (w : World) :
    Covered p w [] (frame.advance owner w).2 := by
  cases frame with
  | sequence rest => cases rest <;> exact .refl w
  | repeatTimes body left => cases left <;> exact .refl w
  | forever body resting => cases resting <;> exact .refl w
  | whileHolds condition body resting =>
    cases resting with
    | true => exact .refl w
    | false =>
      have held := condition.sameBooks_holds owner w
      refine .nothing ?_
      simp only [advance]
      split <;> simp_all only
  | forEach counter next last body =>
    cases next with
    | none => exact .refl w
    | some value => exact .unlisted (x := .passes counter value w) rfl (.of_idle rfl)

namespace Task

theorem covered_step (task : Nat) {frames : List Frame} {move : Move}
    (all : ∀ f ∈ frames, f.From p) (h : step p owner frames w = (move, w')) :
    Covered p w ((stepDeeds owner frames w).map fun d => .happens (.does task d)) w' := by
  have looked {top : Frame} {below : List Frame} {ask : Frame.Advance}
      (advance : top.advance owner w = (ask, w')) (idle : ∀ i self, ask ≠ .run i self) :
      Covered p w ((stepDeeds owner (top :: below) w).map fun d => .happens (.does task d))
        w' := by
    have went := top.covered_advance (p := p) owner w
    rw [advance] at went
    unfold stepDeeds
    dsimp only
    split
    · cases act : top.act? with
      | none => exact went
      | some act' =>
        cases act' with
        | executes i =>
          obtain ⟨rest, rfl⟩ := Frame.eq_sequence_of_act? act
          exact absurd (Prod.mk.inj advance).1.symm (idle i (.sequence rest))
        | starts frame =>
          exact (Covered.single (x := .happens (.does task ⟨owner, .starts frame, w⟩)) rfl
            (.of_idle rfl)).trans went
        | checks condition =>
          exact (Covered.single (x := .happens (.does task ⟨owner, .checks condition, w⟩)) rfl
            (.of_idle rfl)).trans went
    · exact went
  have executed {i : Instruction} {rest : List Instruction} {below : List Frame} {flow : Flow}
      (ready : w.running = true ∧ below.length < mostFrames)
      (here : Frame.From p (.sequence (i :: rest)))
      (execute : i.execute owner p w = (flow, w')) :
      Covered p w ((stepDeeds owner (.sequence (i :: rest) :: below) w).map
        fun d => .happens (.does task d)) w' := by
    have left : w' = (i.execute owner {} w).2 := by rw [← i.execute_world, execute]
    have runs : p.Runs (.happens (.does task ⟨owner, .executes i, w⟩)) := fun j there =>
      Option.some.inj there ▸ here i (.here List.mem_cons_self)
    simp only [stepDeeds, ready.1, ready.2, decide_true, Bool.and_self, if_true, Frame.act?,
      Option.map_some, Option.toList_some, List.map_cons, List.map_nil, left]
    exact .single rfl runs
  cases steps_of_step h with
  | empty => exact .refl w
  | givenUp unready =>
    simp only [stepDeeds, Bool.and_eq_true, decide_eq_true_eq, if_neg unready]
    exact .refl w
  | pop _ advance => exact looked advance (by simp)
  | push _ advance => exact looked advance (by simp)
  | rest _ advance => exact looked advance (by simp)
  | next ready execute => exact executed ready (all _ List.mem_cons_self) execute
  | enter ready execute => exact executed ready (all _ List.mem_cons_self) execute
  | spawn ready execute => exact executed ready (all _ List.mem_cons_self) execute
  | suspend ready execute => exact executed ready (all _ List.mem_cons_self) execute
  | stop ready execute => exact executed ready (all _ List.mem_cons_self) execute

theorem covered_drive (task : Nat) {frames : List Frame} (all : ∀ f ∈ frames, f.From p)
    (q : Queue Frame) (w : World) :
    Covered p w ((deeds p owner frames w).map fun d => .happens (.does task d))
      (drive p owner frames q w).world := by
  have handed := Frame.handedOn_from p owner
  fun_induction drive p owner frames q w with
  | case1 frames q w frames' w' move ih =>
    rw [deeds_go move, List.map_append]
    exact (covered_step task all move).trans (ih (handed.of_step all move))
  | case2 frames q w frames' frame w' move ih =>
    rw [deeds_spawn move, List.map_append]
    exact (covered_step task all move).trans (ih (handed.of_step all move))
  | case3 frames q w frames' wake w' move =>
    rw [deeds_halt move rfl]
    exact covered_step task all move
  | case4 frames q w w' move =>
    rw [deeds_halt move rfl]
    exact covered_step task all move

end Task

end Work
end BlockStage
