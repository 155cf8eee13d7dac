import BlockStage.Proofs.Run.Reseeding

/-! Where the code of a run comes from. Every frame runs code of the program, from its launch on:
what a stack takes up is part of what it has, or a definition of the program. -/

namespace BlockStage

def Program.Has (p : Program) (i : Instruction) : Prop := ∃ e ∈ p.entries, Nested e.script.body i

/-- All that the frame runs stands in the program. -/
def Frame.From (p : Program) (f : Frame) : Prop := ∀ i, Nested f.code i → p.Has i

variable {p : Program} {owner : ObjectId}

namespace Frame

theorem from_entry {e : Program.Entry} (h : e ∈ p.entries) : From p (.sequence e.script.body) :=
  fun _ nested => ⟨e, h, nested⟩

theorem from_of_framesFor {i : Instruction} {rest : List Instruction} {f : Frame}
    (h : From p (.sequence (i :: rest))) (entered : f ∈ i.framesFor owner p) : f.From p := by
  have inside : ∀ j, Nested i.children j → p.Has j :=
    fun j nested => h j (.child List.mem_cons_self nested)
  cases Instruction.enters_of_mem entered with
  | body | repeatTimes | whileHolds | forEach => exact inside
  | otherwise => exact fun j nested => h j (.elseChild List.mem_cons_self nested)
  | definition found =>
    obtain ⟨e, there, rfl⟩ := Option.map_eq_some_iff.1 found
    exact from_entry (List.mem_of_find?_eq_some there)

theorem handedOn_from (p : Program) (owner : ObjectId) : HandedOn p owner (From p) where
  loop {f} := by
    have code : f.loop.code = f.code := by cases f <;> rfl
    rw [From, From, code]
  body h := h
  tail h := fun j nested => h j nested.of_tail
  enter h entered := from_of_framesFor h entered

end Frame

namespace Task

def Halt.From (p : Program) (h : Halt) : Prop :=
  (∀ frames wake, h.suspended = some (frames, wake) → ∀ f ∈ frames, f.From p) ∧
    ∀ f ∈ h.spawned.toList, f.From p

theorem from_of_spawn {frames frames' : List Frame} {frame : Frame} {w w' : World}
    (all : ∀ f ∈ frames, f.From p) (h : step p owner frames w = (.spawn frames' frame, w')) :
    frame.From p := by
  obtain ⟨i, rest, below, rfl, -, -, -, rfl, -⟩ := step_spawn h
  exact fun j nested => all _ List.mem_cons_self j (.child List.mem_cons_self nested)

theorem from_drive {frames : List Frame} (all : ∀ f ∈ frames, f.From p) {q : Queue Frame}
    (waiting : ∀ f ∈ q.toList, f.From p) (w : World) : (drive p owner frames q w).From p := by
  have handed := Frame.handedOn_from p owner
  fun_induction drive p owner frames q w with
  | case1 frames q w frames' w' move ih => exact ih (handed.of_step all move) waiting
  | case2 frames q w frames' frame w' move ih =>
    refine ih (handed.of_step all move) fun f h => ?_
    rw [Queue.toList_push] at h
    rcases List.mem_append.1 h with h | h
    · exact waiting f h
    · rw [List.mem_singleton.1 h]
      exact from_of_spawn all move
  | case3 frames q w frames' wake w' move =>
    refine ⟨fun _ _ h => ?_, waiting⟩
    obtain ⟨rfl, -⟩ := Prod.mk.inj (Option.some.inj h)
    exact handed.of_step all move
  | case4 frames q w w' move => exact ⟨fun _ _ h => by contradiction, waiting⟩

end Task

def Scheduler.From (p : Program) (s : Scheduler) : Prop := ∀ t ∈ s.tasks, ∀ f ∈ t.frames, f.From p

structure Dispatcher.From (p : Program) (d : Dispatcher) : Prop where
  program : d.program = p
  timers : ∀ t ∈ d.timers, t.entry ∈ p.entries

theorem Dispatcher.from_start (p : Program) (now : Float) : (start p now).From p where
  program := rfl
  timers t there := by
    obtain ⟨entry, listed, made⟩ := List.mem_filterMap.1 there
    unfold Timer.ofEntry? at made
    split at made
    · obtain rfl := Option.some.inj made
      exact listed
    · contradiction

end BlockStage
