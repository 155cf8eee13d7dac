import BlockStage.Proofs.Run.Spawning

/-! Properties that a stack cannot lose. A loop frame stays the same loop from pass to pass, and
every other frame that a step leaves was there or was entered by an instruction. -/

namespace BlockStage

namespace Condition

def Certain : Condition → Prop
  | chance _ => False
  | _ => True

theorem holds_of_certain {condition : Condition} (certain : condition.Certain) (owner : ObjectId)
    (w : World) : (condition.holds owner w).2 = w := by
  cases condition with
  | chance percent => exact certain.elim
  | _ => rfl

end Condition

namespace Instruction

/-- The frames that an instruction can enter run a block of it or a definition. -/
inductive Enters (i : Instruction) (owner : ObjectId) (program : Program) : Frame → Prop
  | body : Enters i owner program (.sequence i.children)
  | otherwise : Enters i owner program (.sequence i.elseChildren)
  | definition {name : String} {script : Script}
      (found : program.definition? owner name = some script) :
      Enters i owner program (.sequence script.body)
  | repeatTimes (count : Nat) : Enters i owner program (.repeatTimes i.children count)
  | whileHolds {condition : Condition} (command : i.command = .whileHolds condition) :
      Enters i owner program (.whileHolds condition i.children false)
  | forEach {counter : String} {first last : Int64}
      (command : i.command = .forEach counter first last) :
      Enters i owner program (.forEach counter (some first) last i.children)

theorem enters_of_mem {i : Instruction} {owner : ObjectId} {program : Program} {f : Frame}
    (h : f ∈ i.framesFor owner program) : i.Enters owner program f := by
  obtain ⟨opcode, arguments, kind, command, children, elseChildren⟩ := i
  cases command with
  | call name =>
    obtain ⟨definition, found, rfl⟩ := List.mem_map.1 h
    exact .definition (Option.mem_toList.1 found)
  | ifElse condition =>
    obtain rfl | h := List.mem_cons.1 h
    · exact .body
    · obtain rfl := List.mem_singleton.1 h
      exact .otherwise
  | ifThen condition =>
    obtain rfl := List.mem_singleton.1 h
    exact .body
  | repeatTimes count =>
    obtain rfl := List.mem_singleton.1 h
    exact .repeatTimes count
  | whileHolds condition =>
    obtain rfl := List.mem_singleton.1 h
    exact .whileHolds rfl
  | forEach counter first last =>
    obtain rfl := List.mem_singleton.1 h
    exact .forEach rfl
  | _ => simp [framesFor] at h

end Instruction

namespace Frame

/-- The loop of a frame, at the end of its last pass. -/
def loop : Frame → Frame
  | sequence rest => sequence rest
  | repeatTimes body _ => repeatTimes body 0
  | forever body _ => forever body false
  | whileHolds condition body _ => whileHolds condition body false
  | forEach counter _ last body => forEach counter none last body

variable {owner : ObjectId} {top self : Frame} {w w' : World}

theorem loop_of_advance_push {body : List Instruction}
    (h : top.advance owner w = (.push body self, w')) : self.loop = top.loop := by
  fun_cases advance top owner w
  all_goals simp only [advance, *, Prod.mk.injEq, Advance.push.injEq, reduceCtorEq, false_and] at h
  all_goals
    obtain ⟨⟨-, rfl⟩, -⟩ := h
    rfl

theorem loop_of_advance_rest {wake : Wake} (h : top.advance owner w = (.rest wake self, w')) :
    self.loop = top.loop := by
  fun_cases advance top owner w
  all_goals simp only [advance, *, Prod.mk.injEq, Advance.rest.injEq, reduceCtorEq, false_and] at h
  all_goals
    obtain ⟨⟨-, rfl⟩, -⟩ := h
    rfl

/-- A property of frames that running them for `owner` hands on. -/
structure HandedOn (program : Program) (owner : ObjectId) (P : Frame → Prop) : Prop where
  /-- It does not depend on how far a loop has come. -/
  loop : ∀ {f : Frame}, P f.loop ↔ P f
  body : ∀ {f : Frame}, P f → P (.sequence f.code)
  tail : ∀ {i : Instruction} {rest : List Instruction}, P (.sequence (i :: rest)) →
    P (.sequence rest)
  enter : ∀ {i : Instruction} {rest : List Instruction} {f : Frame}, P (.sequence (i :: rest)) →
    f ∈ i.framesFor owner program → P f

end Frame

variable {program : Program} {owner : ObjectId} {P : Frame → Prop}

theorem Frame.HandedOn.of_step (handed : HandedOn program owner P) {frames : List Frame}
    {w w' : World} {move : Task.Move} (all : ∀ f ∈ frames, P f)
    (h : Task.step program owner frames w = (move, w')) : ∀ f ∈ move.left, P f := by
  have same {top self : Frame} (there : P top) (loop : self.loop = top.loop) : P self :=
    handed.loop.1 (loop ▸ handed.loop.2 there)
  cases Task.steps_of_step h with
  | empty => simp [Task.Move.left]
  | givenUp => simp [Task.Move.left]
  | stop => simp [Task.Move.left]
  | pop _ advance => exact (List.forall_mem_cons.1 all).2
  | push _ advance =>
    obtain ⟨top, below⟩ := List.forall_mem_cons.1 all
    obtain ⟨rfl, -⟩ := code_of_advance_push advance
    exact List.forall_mem_cons.2 ⟨handed.body top,
      List.forall_mem_cons.2 ⟨same top (loop_of_advance_push advance), below⟩⟩
  | rest _ advance =>
    obtain ⟨top, below⟩ := List.forall_mem_cons.1 all
    exact List.forall_mem_cons.2 ⟨same top (loop_of_advance_rest advance), below⟩
  | enter _ execute =>
    obtain ⟨top, below⟩ := List.forall_mem_cons.1 all
    exact List.forall_mem_cons.2 ⟨handed.enter top (Instruction.mem_framesFor execute),
      List.forall_mem_cons.2 ⟨handed.tail top, below⟩⟩
  | next _ execute | spawn _ execute | suspend _ execute =>
    obtain ⟨top, below⟩ := List.forall_mem_cons.1 all
    exact List.forall_mem_cons.2 ⟨handed.tail top, below⟩

namespace Task

structure Unnoticed (program : Program) (owner : ObjectId) (P : Frame → Prop)
    (change : World → World) : Prop extends Frame.HandedOn program owner P where
  running : ∀ w : World, (change w).running = w.running
  advance : ∀ {top : Frame} (w : World), P top →
    top.advance owner (change w) = ((top.advance owner w).1, change (top.advance owner w).2)
  execute : ∀ {i : Instruction} {rest : List Instruction} (w : World),
    P (.sequence (i :: rest)) → i.execute owner program (change w) =
      ((i.execute owner program w).1, change (i.execute owner program w).2)

namespace Unnoticed

variable {change : World → World} {frames : List Frame}

theorem step (h : Unnoticed program owner P change) (all : ∀ f ∈ frames, P f) (w : World) :
    step program owner frames (change w) =
      ((step program owner frames w).1, change (step program owner frames w).2) := by
  cases frames with
  | nil => rfl
  | cons top below =>
    have there := all top List.mem_cons_self
    simp only [Task.step, h.running]
    split
    · simp only [stepTop, h.advance w there]
      rcases ha : top.advance owner w with ⟨ask, w'⟩
      cases ask with
      | run i self =>
        obtain ⟨rest, rfl, rfl, rfl⟩ := Frame.advance_run ha
        simp only [h.execute w' there]
      | _ => rfl
    · rfl

theorem drive (h : Unnoticed program owner P change) (all : ∀ f ∈ frames, P f) (q : Queue Frame)
    (w : World) : drive program owner frames q (change w) =
      { drive program owner frames q w with
        world := change (drive program owner frames q w).world } := by
  have moved {frames : List Frame} {w w' : World} {move : Move} (all : ∀ f ∈ frames, P f)
      (eq : Task.step program owner frames w = (move, w')) :
      Task.step program owner frames (change w) = (move, change w') := by
    rw [h.step all, eq]
  fun_induction Task.drive program owner frames q w with
  | case1 frames q w frames' w' move ih =>
    rw [drive_go (moved all move), ih (h.of_step all move)]
  | case2 frames q w frames' frame w' move ih =>
    rw [drive_spawn (moved all move), ih (h.of_step all move)]
  | case3 frames q w frames' wake w' move => exact drive_suspend (moved all move) q
  | case4 frames q w w' move => exact drive_finish (moved all move) q

end Unnoticed

end Task
end BlockStage
