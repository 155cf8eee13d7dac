import BlockStage.Palette.Standard
import BlockStage.Proofs.Run.Rounds
import BlockStage.Proofs.Run.Spawning
import Mathlib.Logic.Hydra

/-! Whether launches and ticks return. They do just if the tasks they start are over within their
first drive only finitely often, and so they do whenever no forever block comes to itself. -/

namespace BlockStage.Scheduler

open Relation

variable {program : Program} {owner : ObjectId}

/-! ### Code that spawns only finitely deep -/

def SpawnsEnd (program : Program) (owner : ObjectId) (code : List Instruction) : Prop :=
  Acc (fun body code => Spawns program owner code body) code

def Below (program : Program) (owner : ObjectId) (body code : List Instruction) : Prop :=
  Spawns program owner code body ∧ SpawnsEnd program owner code

instance irrefl_below : Std.Irrefl (Below program owner) where
  irrefl code h := by
    obtain ⟨self, ends⟩ := h
    induction ends with
    | intro code _ ih => exact ih code self self

theorem SpawnsEnd.acc_below {code : List Instruction} (h : SpawnsEnd program owner code) :
    Acc (Below program owner) code :=
  Subrelation.accessible (fun h => h.1) h

namespace Starting

/-- What waits, as the heads of a hydra. -/
def heads (x : Starting) : Multiset (List Instruction) := x.waiting.toList.map Frame.code

def AllEnd (program : Program) (owner : ObjectId) (x : Starting) : Prop :=
  ∀ code ∈ x.heads, SpawnsEnd program owner code

/-- A round cuts the first head; what grows in its place is below it. -/
theorem heads_next (program : Program) (owner : ObjectId) {x : Starting} {frame : Frame}
    {waiting : Queue Frame} (hp : x.waiting.pop? = some (frame, waiting)) :
    ∃ grown : Multiset (List Instruction),
      (∀ body ∈ grown, Spawns program owner frame.code body) ∧
      x.heads = frame.code ::ₘ waiting.toList.map Frame.code ∧
      (next program owner x).heads = (waiting.toList.map Frame.code : Multiset _) + grown := by
  obtain ⟨spawned, origin, drive⟩ := Task.spawns_of_drive program owner [frame] x.world
  have heads : x.heads = frame.code ::ₘ waiting.toList.map Frame.code := by
    simp [Starting.heads, Queue.toList_of_pop? hp]
  rw [next_of_pop? hp]
  by_cases full : x.world.config.mostTasks ≤ x.scheduler.tasks.length
  · exact ⟨0, by simp, heads, by simp [Starting.heads, startNext, full]⟩
  · refine ⟨spawned.map Frame.code, fun body hb => ?_, heads, ?_⟩
    · obtain ⟨f, hf, rfl⟩ := List.mem_map.1 (Multiset.mem_coe.1 hb)
      obtain ⟨g, hg, body, -, rfl, spawns⟩ := origin f hf
      rw [List.mem_singleton] at hg
      exact hg ▸ spawns
    · simp [Starting.heads, startNext, full, drive]

theorem returns_of_acc {x : Starting} (hydra : Acc (CutExpand (Below program owner)) x.heads)
    (ends : AllEnd program owner x) : Returns program owner x := by
  -- The queue itself may grow, so the induction is on what waits as a hydra.
  generalize hh : x.heads = heads at hydra
  induction hydra generalizing x with
  | intro heads _ ih =>
    subst hh
    cases hp : x.waiting.pop? with
    | none => exact ⟨0, Queue.pop?_eq_none hp⟩
    | some popped =>
      obtain ⟨frame, waiting⟩ := popped
      obtain ⟨grown, below, before, after⟩ := heads_next program owner hp
      have frame_ends : SpawnsEnd program owner frame.code := ends _ (by simp [before])
      have cut : CutExpand (Below program owner) (next program owner x).heads x.heads := by
        refine ⟨grown, frame.code, fun body hb => ⟨below body hb, frame_ends⟩, ?_⟩
        rw [before, after, ← Multiset.singleton_add, add_right_comm,
          add_comm ({frame.code} : Multiset (List Instruction))]
      have ends' : AllEnd program owner (next program owner x) := by
        intro code hc
        rw [after, Multiset.mem_add] at hc
        rcases hc with old | new
        · exact ends code (by rw [before]; exact Multiset.mem_cons_of_mem old)
        · exact frame_ends.inv (below code new)
      obtain ⟨n, hn⟩ := ih _ cut ends' rfl
      exact ⟨n + 1, hn⟩

theorem AllEnd.returns {x : Starting} (ends : AllEnd program owner x) :
    Returns program owner x :=
  returns_of_acc (acc_of_singleton fun code hc => (ends code hc).acc_below.cutExpand) ends

/-- The loop ends tasks within their first drive only finitely often. -/
def FewEndAtOnce (program : Program) (owner : ObjectId) (x : Starting) : Prop :=
  ∃ n, ∀ m, n ≤ m → ¬ EndsAtOnce program owner ((next program owner)^[m] x)

end Starting

/-! ### Launches and ticks -/

def starting (frame : Frame) (s : Scheduler) (w : World) : Starting := ⟨.ofList [frame], s, w⟩

/-- Each frame is started with all that it spawns, one after the other, and all these starts
return. -/
inductive AllReturn (program : Program) :
    List (ObjectId × Frame) → Scheduler → World → Scheduler → World → Prop
  | nil (s : Scheduler) (w : World) : AllReturn program [] s w s w
  | cons {owner : ObjectId} {frame : Frame} {rest : List (ObjectId × Frame)}
      {s s' : Scheduler} {w w' : World} (n : Nat) (x : Starting)
      (rounds : (Starting.next program owner)^[n] (starting frame s w) = x)
      (done : x.waiting.toList = []) (later : AllReturn program rest x.scheduler x.world s' w') :
      AllReturn program ((owner, frame) :: rest) s w s' w'

/-- A start that returns after at most `mostStarts` rounds has the outcome of these rounds. -/
theorem start_eq {frame : Frame} {s : Scheduler} {w : World} {n : Nat} (le : n ≤ mostStarts)
    (done : ((Starting.next program owner)^[n] (starting frame s w)).waiting.toList = []) :
    start program owner frame s w =
      (((Starting.next program owner)^[n] (starting frame s w)).scheduler,
        ((Starting.next program owner)^[n] (starting frame s w)).world) := by
  obtain ⟨k, hk⟩ := Nat.exists_eq_add_of_le' le
  rw [start, Starting.startAll_eq_iterate, hk, Function.iterate_add_apply]
  change (((Starting.next program owner)^[k] ((Starting.next program owner)^[n]
    (starting frame s w))).scheduler, _) = _
  rw [← starting, Starting.iterate_of_empty done]

theorem AllReturn.unique {starts : List (ObjectId × Frame)} {s s₁ s₂ : Scheduler}
    {w w₁ w₂ : World} (first : AllReturn program starts s w s₁ w₁)
    (second : AllReturn program starts s w s₂ w₂) : s₁ = s₂ ∧ w₁ = w₂ := by
  induction first with
  | nil => cases second; exact ⟨rfl, rfl⟩
  | cons n x rounds done _ ih =>
    obtain _ | ⟨n', x', rounds', done', later'⟩ := second
    subst rounds rounds'
    rw [Starting.iterate_eq_of_empty done' done] at later'
    exact ih later'

theorem allReturn_append {before after : List (ObjectId × Frame)} {s s' : Scheduler}
    {w w' : World} :
    AllReturn program (before ++ after) s w s' w' ↔
      ∃ s₁ w₁, AllReturn program before s w s₁ w₁ ∧ AllReturn program after s₁ w₁ s' w' := by
  constructor
  · intro h
    induction before generalizing s w with
    | nil => exact ⟨s, w, .nil s w, h⟩
    | cons p before ih =>
      obtain _ | ⟨n, x, rounds, done, later⟩ := h
      obtain ⟨s₁, w₁, first, second⟩ := ih later
      exact ⟨s₁, w₁, .cons n x rounds done first, second⟩
  · rintro ⟨s₁, w₁, first, second⟩
    induction first with
    | nil => exact second
    | cons n x rounds done _ ih => exact .cons n x rounds done (ih second)

/-- Starts return just if each one whose predecessors return ends few tasks at once. -/
theorem allReturn_iff (starts : List (ObjectId × Frame)) (s : Scheduler) (w : World) :
    (∃ s' w', AllReturn program starts s w s' w') ↔
      ∀ before owner frame after s₁ w₁, starts = before ++ (owner, frame) :: after →
        AllReturn program before s w s₁ w₁ →
        Starting.FewEndAtOnce program owner (starting frame s₁ w₁) := by
  constructor
  · rintro ⟨s', w', h⟩ before owner frame after s₁ w₁ rfl first
    obtain ⟨s₂, w₂, first', rest⟩ := allReturn_append.1 h
    obtain ⟨rfl, rfl⟩ := first.unique first'
    obtain _ | ⟨n, x, rfl, done, -⟩ := rest
    exact (Starting.returns_iff _).1 ⟨n, done⟩
  · intro h
    induction starts generalizing s w with
    | nil => exact ⟨s, w, .nil s w⟩
    | cons p starts ih =>
      obtain ⟨owner, frame⟩ := p
      obtain ⟨n, done⟩ := (Starting.returns_iff _).2 (h [] owner frame starts s w rfl (.nil s w))
      obtain ⟨s', w', later⟩ := ih _ _ fun before owner' frame' after s₁ w₁ eq first =>
        h ((owner, frame) :: before) owner' frame' after s₁ w₁ (by rw [eq]; rfl)
          (.cons n _ rfl done first)
      exact ⟨s', w', .cons n _ rfl done later⟩

theorem allReturn_of_spawnsEnd {starts : List (ObjectId × Frame)}
    (h : ∀ p ∈ starts, SpawnsEnd program p.1 p.2.code) (s : Scheduler) (w : World) :
    ∃ s' w', AllReturn program starts s w s' w' := by
  rw [allReturn_iff]
  rintro before owner frame after s₁ w₁ rfl -
  refine (Starting.returns_iff _).1 (Starting.AllEnd.returns fun code hc => ?_)
  simp only [Starting.heads, starting, Queue.toList_ofList, List.map_cons, List.map_nil,
    Multiset.coe_singleton, Multiset.mem_singleton] at hc
  rw [hc]
  exact h (owner, frame) (by simp)

theorem spawns_of_visitAll {tasks : List Task} {w : World} {p : ObjectId × Frame}
    (h : p ∈ (visitAll program tasks w).2.1) :
    ∃ t ∈ tasks, p.1 = t.owner ∧ ∃ f ∈ t.frames, Spawns program t.owner f.code p.2.code := by
  induction tasks generalizing w with
  | nil => simp [visitAll] at h
  | cons t rest ih =>
    simp only [visitAll, List.mem_append, List.mem_map] at h
    rcases h with ⟨f, hf, rfl⟩ | h
    · obtain ⟨-, g, hg, body, -, rfl, spawns⟩ := spawned_of_visit program hf
      exact ⟨t, List.mem_cons_self, rfl, g, hg, spawns⟩
    · obtain ⟨t', ht', found⟩ := ih h
      exact ⟨t', List.mem_cons_of_mem t ht', found⟩

def LaunchReturns (program : Program) (owner : ObjectId) (body : List Instruction)
    (s : Scheduler) (w : World) : Prop :=
  (w.running && !body.isEmpty && w.scene.contains owner) = true →
    ∃ s' w', AllReturn program [(owner, .sequence body)] s w s' w'

def TickReturns (program : Program) (s : Scheduler) (w : World) : Prop :=
  w.running = true →
    let (tasks, spawned, w') := visitAll program s.tasks w
    ∃ s' w'', AllReturn program spawned { s with tasks } w' s' w''

/-- Launches and ticks return just if every start they come to ends tasks within their first
drive only finitely often. They do if no chain of forever blocks that spawn each other is
endless. -/
theorem launch_and_tick_return_iff (program : Program) (s : Scheduler) (w : World) :
    (∀ owner body, LaunchReturns program owner body s w ↔
      ((w.running && !body.isEmpty && w.scene.contains owner) = true →
        Starting.FewEndAtOnce program owner (starting (.sequence body) s w))) ∧
    (TickReturns program s w ↔ (w.running = true →
      let (tasks, spawned, w') := visitAll program s.tasks w
      ∀ before owner frame after s₁ w₁, spawned = before ++ (owner, frame) :: after →
        AllReturn program before { s with tasks } w' s₁ w₁ →
        Starting.FewEndAtOnce program owner (starting frame s₁ w₁))) ∧
    (∀ owner body, SpawnsEnd program owner body → LaunchReturns program owner body s w) ∧
    ((∀ t ∈ s.tasks, ∀ f ∈ t.frames, SpawnsEnd program t.owner f.code) →
      TickReturns program s w) := by
  refine ⟨fun owner body => imp_congr_right fun _ => ?_, imp_congr_right fun _ => ?_,
    fun owner body ends _ => ?_, fun ends _ => ?_⟩
  · rw [allReturn_iff]
    constructor
    · intro h
      exact h [] owner (.sequence body) [] s w rfl (.nil s w)
    · rintro h (_ | ⟨p, before⟩) owner' frame after s₁ w₁ eq first
      · cases first
        simp only [List.nil_append, List.cons.injEq, Prod.mk.injEq] at eq
        obtain ⟨⟨rfl, rfl⟩, -⟩ := eq
        exact h
      · simp at eq
  · exact allReturn_iff _ _ _
  · exact allReturn_of_spawnsEnd (by simpa [Frame.code] using ends) s w
  · refine allReturn_of_spawnsEnd (fun p hp => ?_) _ _
    obtain ⟨t, ht, owner, f, hf, spawns⟩ := spawns_of_visitAll hp
    rw [owner]
    exact (ends t ht f hf).inv spawns

/-! ### A block that starts itself over and over -/

section Restarting

/-- `myBlock` is a forever block that calls `myBlock` and stops. -/
def restarting : Scene where
  objects := [{
    id := ⟨1⟩
    scripts := [
      ⟨1, 0, 0, [⟨1, "defineBlock", [], [], []⟩,
        ⟨2, "forever", [], [⟨3, "callBlock", [], [], []⟩, ⟨4, "stop", [], [], []⟩], []⟩]⟩,
      ⟨2, 0, 0, [⟨5, "onStart", [], [], []⟩, ⟨6, "callBlock", [], [], []⟩]⟩] }]
  nextId := 2

def restartingProgram : Program := .ofScene .standard restarting

def restartingWorld : World := { World.ofConfig {} with scene := restarting, running := true }

def callAgain : Instruction :=
  ⟨.callBlock, [("name", .text "myBlock")], .command, .call "myBlock", [], []⟩

def thenStop : Instruction := ⟨.stop, [], .command, .stop, [], []⟩

def foreverAgain : Instruction :=
  ⟨.forever, [], .container, .forever, [callAgain, thenStop], []⟩

def loopAgain : Frame := .forever [callAgain, thenStop] false

theorem passes_callAgain (rest : List Instruction) (below : List Frame)
    (room : below.length + 1 < Task.mostFrames) :
    Task.Passes restartingProgram ⟨1⟩ (.sequence (callAgain :: rest) :: below) restartingWorld
      [loopAgain] (.sequence rest :: below) restartingWorld := by
  have here : (restartingWorld.running && decide (below.length < Task.mostFrames)) = true := by
    simp only [Bool.and_eq_true, decide_eq_true_eq]
    exact ⟨rfl, by omega⟩
  have inside : (restartingWorld.running &&
      decide ((Frame.sequence rest :: below).length < Task.mostFrames)) = true := by
    simp only [Bool.and_eq_true, decide_eq_true_eq]
    exact ⟨rfl, room⟩
  have call : Task.step restartingProgram ⟨1⟩ (.sequence (callAgain :: rest) :: below)
      restartingWorld =
        (.go (.sequence [foreverAgain] :: .sequence rest :: below), restartingWorld) := by
    rw [Task.step, if_pos here]
    rfl
  have ask : Task.step restartingProgram ⟨1⟩
      (.sequence [foreverAgain] :: .sequence rest :: below) restartingWorld =
        (.spawn (.sequence [] :: .sequence rest :: below) loopAgain, restartingWorld) := by
    rw [Task.step, if_pos inside]
    rfl
  have back : Task.step restartingProgram ⟨1⟩ (.sequence [] :: .sequence rest :: below)
      restartingWorld = (.go (.sequence rest :: below), restartingWorld) := by
    rw [Task.step, if_pos inside]
    rfl
  exact .go call (.spawn ask (.single_go back))

theorem drive_callAgain (q : Queue Frame) :
    Task.drive restartingProgram ⟨1⟩ [.sequence [callAgain]] q restartingWorld =
      ⟨none, q.push loopAgain, restartingWorld⟩ := by
  have path := passes_callAgain [] [] (by decide)
  have emptied : Task.step restartingProgram ⟨1⟩ [.sequence []] restartingWorld =
      (.go [], restartingWorld) := rfl
  rw [Task.drive_passes path, Task.drive_go emptied, Task.drive_finish rfl]
  rfl

theorem drive_loopAgain (q : Queue Frame) :
    Task.drive restartingProgram ⟨1⟩ [loopAgain] q restartingWorld =
      ⟨none, q.push loopAgain, restartingWorld⟩ := by
  have pass : Task.step restartingProgram ⟨1⟩ [loopAgain] restartingWorld =
      (.go [.sequence [callAgain, thenStop], .forever [callAgain, thenStop] true],
        restartingWorld) := rfl
  have path := passes_callAgain [thenStop] [.forever [callAgain, thenStop] true] (by decide)
  rw [Task.drive_go pass, Task.drive_passes path, Task.drive_finish rfl]
  rfl

/-- All that the loop that starts tasks comes to: one frame waits, and it ends at once. -/
structure Restarts (x : Starting) : Prop where
  waits : x.waiting.toList = [.sequence [callAgain]] ∨ x.waiting.toList = [loopAgain]
  tasks : x.scheduler.tasks = []
  world : x.world = restartingWorld

theorem Restarts.drive {x : Starting} (h : Restarts x) :
    ∃ frame waiting, x.waiting.pop? = some (frame, waiting) ∧ waiting.toList = [] ∧
      Task.drive restartingProgram ⟨1⟩ [frame] waiting x.world =
        ⟨none, waiting.push loopAgain, restartingWorld⟩ := by
  cases hp : x.waiting.pop? with
  | none => rcases h.waits with h | h <;> simp [Queue.pop?_eq_none hp] at h
  | some popped =>
    obtain ⟨frame, waiting⟩ := popped
    have listed := Queue.toList_of_pop? hp
    rw [h.world]
    refine ⟨frame, waiting, rfl, ?_⟩
    rcases h.waits with first | again
    · obtain ⟨rfl, empty⟩ := List.cons.inj (listed.symm.trans first)
      exact ⟨empty, drive_callAgain waiting⟩
    · obtain ⟨rfl, empty⟩ := List.cons.inj (listed.symm.trans again)
      exact ⟨empty, drive_loopAgain waiting⟩

theorem Restarts.free {x : Starting} (h : Restarts x) :
    x.scheduler.tasks.length < x.world.config.mostTasks := by
  rw [h.tasks, h.world]
  decide

theorem Restarts.endsAtOnce {x : Starting} (h : Restarts x) :
    Starting.EndsAtOnce restartingProgram ⟨1⟩ x := by
  obtain ⟨frame, waiting, hp, -, drive⟩ := h.drive
  exact ⟨frame, waiting, hp, h.free, by rw [drive]⟩

theorem Restarts.next {x : Starting} (h : Restarts x) :
    Restarts (Starting.next restartingProgram ⟨1⟩ x) := by
  obtain ⟨frame, waiting, hp, empty, drive⟩ := h.drive
  have free := h.free
  rw [Starting.next_of_pop? hp]
  simp only [startNext, Nat.not_le.2 free, if_false, drive]
  exact ⟨.inr (by simp [empty]), h.tasks, rfl⟩

/-- Pressing the start button of this scene never comes back: the loop ends one task after the
other within its first drive, so that the limit of live tasks never counts. -/
theorem launch_restarting_not_returns :
    restartingProgram.matching .start none = [⟨⟨1⟩, ⟨.start, [], [callAgain]⟩⟩] ∧
    ¬ LaunchReturns restartingProgram ⟨1⟩ [callAgain] {} restartingWorld := by
  refine ⟨rfl, fun returns => ?_⟩
  obtain ⟨s, w, h⟩ := returns rfl
  obtain ⟨n, few⟩ := (allReturn_iff _ _ _).1 ⟨s, w, h⟩ [] ⟨1⟩ (.sequence [callAgain]) [] {}
    restartingWorld rfl (.nil _ _)
  have stuck (m : Nat) : Restarts ((Starting.next restartingProgram ⟨1⟩)^[m]
      (starting (.sequence [callAgain]) {} restartingWorld)) := by
    induction m with
    | zero => exact ⟨.inl rfl, rfl, rfl⟩
    | succ m ih =>
      rw [Function.iterate_succ_apply']
      exact ih.next
  exact few n (Nat.le_refl n) (stuck n).endsAtOnce

end Restarting

end BlockStage.Scheduler
